/-
# The thread of the worker

All that the thread of the worker does, from its first wait to its end, as one errand: the
faults are handled and the messages are served in parts, and others can come in between. With
nobody in between it is the serving of a script (`Worker.run_threadErrand`).

A thread that comes to its end has torn everything down, also after an error of the serving;
so it leaves no due behind that is not met (`Worker.threadErrand_pays`).

Key definitions: `Worker.faultErrand`, `Worker.drainErrand`, `Worker.eventLoopErrand`,
`Worker.threadErrand`.
Key theorems: `Worker.run_threadErrand`, `Worker.eventLoopErrand_minds`,
`Worker.threadErrand_pays`.
-/
import DemandPager.Proofs.Dealings
import DemandPager.Proofs.Obligations

namespace DemandPager
namespace Worker

open Errand (lift gate quiet_bind quiet_lift quiet_ask quiet_pure)

variable {π γ : Type} [Paging π]

/-! ### Faults -/

/-- Chunks are evicted while it is crowded. -/
def evictWhileCrowdedErrand (fill : Nat) : (records : Nat) → Errand π γ Unit
  | 0 => lift (dropWhileCrowded fill 0)
  | records + 1 => do
    if (← lift get).crowded fill then
      evictErrand
      evictWhileCrowdedErrand fill records

/-- Room is made for a chunk. -/
def makeRoomErrand (fill : Nat) : Errand π γ Unit := do
  let w ← lift get
  let needed ← lift (checked (Word.add w.used fill))
  if w.limits.high < needed then
    evictWhileCrowdedErrand fill w.ring.length

/-- A chunk is filled, and then it is installed and recorded. -/
def loadErrand (site : FaultSite γ) : Errand π γ Unit := do
  let content ← lift (fillChunk site.object site.span)
  let start ← lift (checked (Word.add site.bodyStart site.span.offset))
  lift do
    if ← settle (← install start content) then
      recordChunk { address := start, size := site.span.bytes, owner := site.object.id }
    else
      count .duplicateFault

/-- The chunk of a fault is found, room is made for it, and it is loaded. -/
def faultErrand (address : Nat) : Errand π γ Unit := do
  let site ← lift do
    count .fault
    let w ← get
    let site ← checked (locateFault w.objects address)
    if w.limits.high < site.span.bytes then
      refuse (.chunkTooLarge site.span.bytes w.limits.high)
    set { w with scratch := ← checked (w.scratch.growTo site.span.bytes) }
    return site
  makeRoomErrand site.span.bytes
  loadErrand site

/-- Faults are handled one after the other. -/
def faultsErrand : List Nat → Errand π γ Unit
  | [] => pure ()
  | address :: rest => do
    faultErrand address
    faultsErrand rest

/-- The reported faults are taken and handled. -/
def serveFaultsErrand : Errand π γ Unit := do
  let (addresses, isOpen) ← lift do settle (← readFaults)
  faultsErrand addresses
  if !isOpen then
    lift (refuse (.unsupported "userfaultfd closed"))

/-! ### The serving -/

/-- Up to `n` messages are taken and served. -/
def serveMessagesErrand : (n : Nat) → Errand π γ Flow
  | 0 => return .proceed
  | n + 1 => do
    match ← lift nextMessage with
    | none => return .proceed
    | some message =>
      match ← serveErrand message with
      | .stop => return .stop
      | .proceed => serveMessagesErrand n

/-- The messages that are queued are taken and served. -/
def drainErrand : Errand π γ Flow := do
  serveMessagesErrand (← lift (return (← get).exchange.channel.pending.length))

/-- What the tokens stand for is served. -/
def serveTokensErrand (bell : Except IoCause Unit) : List Nat → Errand π γ Unit
  | [] => pure ()
  | token :: rest => do
    if token = faultToken then
      serveFaultsErrand
      serveTokensErrand bell rest
    else if token = controlToken then
      lift (answerBell bell)
      match ← drainErrand with
      | .stop => pure ()
      | .proceed => serveTokensErrand bell rest
    else
      serveTokensErrand bell rest

/-- The worker waits and serves until it is asked to stop, or something fails. -/
def eventLoopErrand (o : Options) : (script : List (Turn π γ)) → (interrupts : Nat) →
    Errand π γ Unit
  | script, interrupts => do
    if (← lift get).phase = .running then
      lift (note (.wait o.pollTimeout))
      match script with
      | [] => lift (refuse (.io scriptExhausted))
      | turn :: rest =>
        lift (arrive turn)
        match turn.outcome with
        | .failed cause => lift (refuse (.io cause))
        | .interrupted => eventLoopErrand o rest (← lift (bearInterrupt o interrupts))
        | .timedOut =>
          match ← drainErrand with
          | .stop => pure ()
          | .proceed => eventLoopErrand o rest 0
        | .ready tokens =>
          serveTokensErrand turn.bell tokens
          eventLoopErrand o rest 0

/-- The thread of the worker: it serves, and then it tears everything down, however the
serving ends. -/
def threadErrand (o : Options) (script : List (Turn π γ)) (forgotten : Except PagerError Unit) :
    Errand π γ Unit := do
  let outcome ← (eventLoopErrand o script 0).attempt
  lift (note (.forget faultToken forgotten))
  shutdownErrand
  lift (settle outcome)

/-! ### The operations are their parts -/

theorem run_evictWhileCrowdedErrand (fill : Nat) : ∀ records : Nat,
    (evictWhileCrowdedErrand fill records : Errand π γ Unit).run = dropWhileCrowded fill records
  | 0 => Errand.run_lift _
  | records + 1 => by
    unfold evictWhileCrowdedErrand dropWhileCrowded
    rw [Errand.run_bind, Errand.run_lift]
    congr 1
    funext w
    split
    · rw [Errand.run_bind, run_evictErrand, run_evictWhileCrowdedErrand fill records]
    · rfl

theorem run_makeRoomErrand (fill : Nat) :
    (makeRoomErrand fill : Errand π γ Unit).run = evictFor fill := by
  unfold makeRoomErrand evictFor
  rw [Errand.run_bind, Errand.run_lift]
  congr 1
  funext w
  rw [Errand.run_bind, Errand.run_lift]
  congr 1
  funext needed
  split
  · exact run_evictWhileCrowdedErrand ..
  · rfl

theorem run_loadErrand (site : FaultSite γ) :
    (loadErrand site : Errand π γ Unit).run = loadChunk site := by
  unfold loadErrand loadChunk
  simp only [Errand.run_bind, Errand.run_lift]

theorem run_faultErrand (address : Nat) :
    (faultErrand address : Errand π γ Unit).run = handleFault address := by
  unfold faultErrand handleFault
  simp only [Errand.run_bind, Errand.run_lift, run_makeRoomErrand, run_loadErrand, bind_assoc]
  congr 1
  funext _
  congr 1
  funext w
  congr 1
  funext site
  split
  · rfl
  · simp only [bind_assoc, pure_bind]

theorem run_faultsErrand : ∀ addresses : List Nat,
    (faultsErrand addresses : Errand π γ Unit).run = handleFaults addresses
  | [] => rfl
  | address :: rest => by
    unfold faultsErrand handleFaults
    rw [Errand.run_bind, run_faultErrand, run_faultsErrand rest]

theorem run_serveFaultsErrand : (serveFaultsErrand : Errand π γ Unit).run = serveFaults := by
  unfold serveFaultsErrand serveFaults
  simp only [Errand.run_bind, Errand.run_lift, run_faultsErrand, bind_assoc]
  congr 1
  funext result
  congr 1
  funext reports
  congr 1
  funext _
  split
  · exact Errand.run_lift _
  · rfl

theorem run_serveMessagesErrand : ∀ n : Nat,
    (serveMessagesErrand n : Errand π γ Flow).run = serveMessages n
  | 0 => rfl
  | n + 1 => by
    unfold serveMessagesErrand serveMessages
    rw [Errand.run_bind, Errand.run_lift]
    congr 1
    funext taken
    cases taken with
    | none => rfl
    | some message =>
      dsimp only
      rw [Errand.run_bind, run_serveErrand]
      congr 1
      funext flow
      cases flow with
      | stop => rfl
      | proceed => exact run_serveMessagesErrand n

theorem run_drainErrand : (drainErrand : Errand π γ Flow).run = drainControl := by
  unfold drainErrand drainControl
  simp only [Errand.run_bind, Errand.run_lift, run_serveMessagesErrand, bind_assoc, pure_bind]

theorem run_serveTokensErrand (bell : Except IoCause Unit) : ∀ tokens : List Nat,
    (serveTokensErrand bell tokens : Errand π γ Unit).run = serveTokens bell tokens
  | [] => rfl
  | token :: rest => by
    unfold serveTokensErrand serveTokens
    split
    · rw [Errand.run_bind, run_serveFaultsErrand, run_serveTokensErrand bell rest]
    split
    · rw [Errand.run_bind, Errand.run_lift]
      congr 1
      funext _
      rw [Errand.run_bind, run_drainErrand]
      congr 1
      funext flow
      cases flow with
      | stop => rfl
      | proceed => exact run_serveTokensErrand bell rest
    · exact run_serveTokensErrand bell rest

theorem run_eventLoopErrand (o : Options) : ∀ (script : List (Turn π γ)) (interrupts : Nat),
    (eventLoopErrand o script interrupts).run = eventLoop o script interrupts
  | [], interrupts => by
    unfold eventLoopErrand eventLoop
    rw [Errand.run_bind, Errand.run_lift]
    congr 1
    funext w
    split
    · rw [Errand.run_bind, Errand.run_lift]
      congr 1
    · rfl
  | turn :: rest, interrupts => by
    unfold eventLoopErrand eventLoop
    rw [Errand.run_bind, Errand.run_lift]
    congr 1
    funext w
    split
    · rw [Errand.run_bind, Errand.run_lift]
      congr 1
      funext _
      dsimp only
      rw [Errand.run_bind, Errand.run_lift]
      congr 1
      funext _
      cases turn.outcome with
      | failed cause => exact Errand.run_lift _
      | interrupted =>
        dsimp only
        rw [Errand.run_bind, Errand.run_lift]
        congr 1
        funext more
        exact run_eventLoopErrand o rest more
      | timedOut =>
        dsimp only
        rw [Errand.run_bind, run_drainErrand]
        congr 1
        funext flow
        cases flow with
        | stop => rfl
        | proceed => exact run_eventLoopErrand o rest 0
      | ready tokens =>
        dsimp only
        rw [Errand.run_bind, run_serveTokensErrand, run_eventLoopErrand o rest 0]
    · rfl

/-- **With nobody in between the thread serves its script.** -/
theorem run_threadErrand (o : Options) (script : List (Turn π γ))
    (forgotten : Except PagerError Unit) :
    (threadErrand o script forgotten).run = serve o script forgotten := by
  unfold threadErrand serve windUp
  simp only [Errand.run_bind, Errand.run_attempt, Errand.run_lift, run_eventLoopErrand,
    run_shutdownErrand, bind_assoc]

/-! ### Faults are no matter of the exchange -/

section Faults

variable {w : Worker π γ}

theorem quiet_evictErrand : (evictErrand : Errand π γ Unit).Quiet := by
  refine quiet_bind (quiet_lift fun w => leads_get_bind (leads_settle_bind fun popped => ?_))
    fun record => ?_
  · exact leads_bind (leads_modify (atRest_of_eq rfl rfl rfl rfl)) fun _ v => leads_pure _
  · split
    · exact quiet_bind (quiet_writeBackErrand _) fun _ =>
        quiet_lift fun w => still_easing.dropChunk _
    · exact quiet_pure _

theorem quiet_evictWhileCrowdedErrand (fill : Nat) : ∀ records : Nat,
    (evictWhileCrowdedErrand fill records : Errand π γ Unit).Quiet
  | 0 => quiet_lift fun w => still_easing.dropWhileCrowded fill 0 w
  | records + 1 => by
    refine quiet_bind (quiet_lift fun w => leads_get) fun w => ?_
    split
    · exact quiet_bind quiet_evictErrand fun _ => quiet_evictWhileCrowdedErrand fill records
    · exact quiet_pure _

theorem quiet_makeRoomErrand (fill : Nat) : (makeRoomErrand fill : Errand π γ Unit).Quiet := by
  refine quiet_bind (quiet_lift fun w => leads_get) fun w => ?_
  refine quiet_bind (quiet_lift fun w => leads_checked _) fun needed => ?_
  split
  · exact quiet_evictWhileCrowdedErrand ..
  · exact quiet_pure _

theorem quiet_loadErrand (site : FaultSite γ) : (loadErrand site : Errand π γ Unit).Quiet := by
  refine quiet_bind (quiet_lift fun w => still_fillChunk ..) fun content => ?_
  refine quiet_bind (quiet_lift fun w => leads_checked _) fun start => quiet_lift fun w => ?_
  refine leads_bind (still_callPages fun _ => ⟨rfl, rfl⟩) fun result v => ?_
  refine leads_settle_bind fun installed => ?_
  split
  · exact still_recordChunk _
  · exact still_count _

theorem quiet_faultErrand (address : Nat) : (faultErrand address : Errand π γ Unit).Quiet := by
  refine quiet_bind (quiet_lift fun w => ?_) fun site =>
    quiet_bind (quiet_makeRoomErrand _) fun _ => quiet_loadErrand _
  refine leads_bind (still_count _) fun _ v => leads_get_bind ?_
  refine leads_checked_bind fun site => ?_
  split
  · exact leads_refuse_bind
  · refine leads_checked_bind fun scratch => ?_
    exact leads_bind (leads_set (atRest_of_eq rfl rfl rfl rfl)) fun _ _ => leads_pure _

theorem quiet_faultsErrand : ∀ addresses : List Nat,
    (faultsErrand addresses : Errand π γ Unit).Quiet
  | [] => quiet_pure _
  | address :: rest => quiet_bind (quiet_faultErrand address) fun _ => quiet_faultsErrand rest

theorem quiet_serveFaultsErrand : (serveFaultsErrand : Errand π γ Unit).Quiet := by
  refine quiet_bind (quiet_lift fun w => ?_) fun reports =>
    quiet_bind (quiet_faultsErrand _) fun _ => ?_
  · exact leads_bind (still_callPages fun _ => ⟨rfl, rfl⟩) fun _ v => leads_settle _
  · split
    · exact quiet_lift fun w => leads_refuse _
    · exact quiet_pure _

end Faults

/-! ### The serving forgets no due -/

variable {tickets gates : List Nat} {D : Due → Prop} {w : Worker π γ}

theorem serveMessagesErrand_minds : ∀ (n : Nat) (D : Due → Prop) (w : Worker π γ),
    Minding tickets gates D w → (serveMessagesErrand n : Errand π γ Flow).Withstands
      (fun _ => Minding tickets gates) (fun _ _ => False) D w
  | 0, _, _, h => h
  | n + 1, D, w, h => by
    unfold serveMessagesErrand
    refine Errand.withstands_bind.mpr ((Stable.minding ..).lift h fun D w hw => ?_)
    unfold nextMessage
    rw [ends_bind, ends_get]
    cases hnext : w.exchange.channel.next with
    | none => exact hw
    | some taken =>
      obtain ⟨message, channel⟩ := taken
      obtain ⟨hhoused, htaken⟩ := hw.popped hnext
      refine Errand.Withstands.bind (serveErrand_minds htaken hhoused) fun flow D w hw => ?_
      cases flow with
      | stop => exact hw
      | proceed => exact serveMessagesErrand_minds n D w hw

theorem drainErrand_minds (h : Minding tickets gates D w) :
    (drainErrand : Errand π γ Flow).Withstands (fun _ => Minding tickets gates)
      (fun _ _ => False) D w := by
  refine Errand.Withstands.bind ((Stable.minding ..).sure h fun w => ?_) fun n D w hw => ?_
  · exact refl_of Unmoved w
  · exact serveMessagesErrand_minds n D w hw

omit [Paging π] in
theorem unmoved_answerBell (bell : Except IoCause Unit) (w : Worker π γ) :
    Leads Unmoved (answerBell bell) w := by
  cases bell with
  | ok u => exact leads_modify (.of_eq rfl rfl rfl rfl rfl)
  | error cause => exact refl_of Unmoved w

theorem serveTokensErrand_minds (bell : Except IoCause Unit) :
    ∀ (tokens : List Nat) (D : Due → Prop) (w : Worker π γ),
    Minding tickets gates D w → (serveTokensErrand bell tokens : Errand π γ Unit).Withstands
      (fun _ => Minding tickets gates) (Minding tickets gates) D w
  | [], _, _, h => h
  | token :: rest, D, w, h => by
    unfold serveTokensErrand
    split
    · refine ((Stable.minding ..).quiet quiet_serveFaultsErrand h).bind fun _ D w hw => ?_
      exact serveTokensErrand_minds bell rest D w hw
    split
    · refine ((Stable.minding ..).part h fun w => unmoved_answerBell bell w).bind fun _ D w hw => ?_
      refine ((drainErrand_minds hw).mono (fun _ _ _ h => h) fun _ _ h => h.elim).bind
        fun flow D w hw => ?_
      cases flow with
      | stop => exact hw
      | proceed => exact serveTokensErrand_minds bell rest D w hw
    · exact serveTokensErrand_minds bell rest D w h

omit [Paging π] in
/-- What happens during a wait is what others may do. -/
theorem interferes_arrive (turn : Turn π γ) :
    Ends (arrive turn) w (fun _ v => Interferes w.toSite v.toSite ∧ v.toDesk = w.toDesk)
      fun _ _ => False :=
  ⟨Interferes.trans (t := { w.toSite with pages := turn.meanwhile w.pages })
    (.of_eq rfl rfl rfl fun h => h) (Site.interferes_submitAll turn.requests _), rfl⟩

/-- **The serving forgets no due**, however it ends. -/
theorem eventLoopErrand_minds (o : Options) : ∀ (script : List (Turn π γ)) (interrupts : Nat)
    (D : Due → Prop) (w : Worker π γ), Minding tickets gates D w →
    (eventLoopErrand o script interrupts).Withstands (fun _ => Minding tickets gates)
      (Minding tickets gates) D w
  | script, interrupts, D, w, h => by
    unfold eventLoopErrand
    refine ((Stable.minding ..).sure h fun w => ?_).bind fun v D w hw => ?_
    · exact refl_of Unmoved w
    split
    · refine ((Stable.minding ..).sure hw fun w => unmoved_note _).bind fun _ D w hw => ?_
      cases script with
      | nil => exact (Stable.minding ..).lift hw fun D w hw _ _ => hw
      | cons turn rest =>
        dsimp only
        have hminding : Stable (Minding tickets gates : (Due → Prop) → Worker π γ → Prop) :=
          .minding ..
        refine Errand.withstands_bind.mpr (hminding.lift hw fun D w hw => ?_)
        refine (interferes_arrive turn).mono (fun _ v ⟨harrived, hdesk⟩ => ?_) fun _ _ h => h.elim
        have hv : Minding tickets gates D v := by
          have hmeanwhile := hw.meanwhile harrived
          rw [← hdesk] at hmeanwhile
          exact hmeanwhile.anti fun _ => .inl
        cases turn.outcome with
        | failed cause => exact hminding.lift hv fun D w hw _ _ => hw
        | interrupted =>
          refine Errand.withstands_bind.mpr (hminding.lift hv fun D w hw => ?_)
          exact ends_bearInterrupt (fun more => eventLoopErrand_minds o rest more D w hw)
            fun _ _ _ => hw
        | timedOut =>
          refine ((drainErrand_minds hv).mono (fun _ _ _ h => h) fun _ _ h => h.elim).bind
            fun flow D w hw => ?_
          cases flow with
          | stop => exact hw
          | proceed => exact eventLoopErrand_minds o rest 0 D w hw
        | ready tokens =>
          refine (serveTokensErrand_minds turn.bell tokens _ _ hv).bind fun _ D w hw => ?_
          exact eventLoopErrand_minds o rest 0 D w hw
    · exact hw

/-- **A thread that comes to its end leaves nothing behind**, whether it was asked to stop or
something failed. -/
theorem threadErrand_pays {o : Options} {script : List (Turn π γ)}
    {forgotten : Except PagerError Unit} (h : Minding [] [] D w) :
    (threadErrand o script forgotten).Withstands (fun _ => PaidOff) PaidOff D w := by
  unfold threadErrand
  have hrest : ∀ (outcome : Except PagerError Unit) (D : Due → Prop) (w : Worker π γ),
      Minding [] [] D w → (do
        lift (note (.forget faultToken forgotten))
        shutdownErrand
        lift (settle outcome) : Errand π γ Unit).Withstands (fun _ => PaidOff) PaidOff D w := by
    intro outcome D w hw
    refine ((Stable.minding [] []).sure hw fun w => unmoved_note _).bind fun _ D w hw => ?_
    refine ((shutdownErrand_pays hw).mono (fun _ _ _ h => h) fun _ _ h => h.elim).bind
      fun _ D w hw => ?_
    exact stable_paidOff.quiet (quiet_lift fun w => leads_settle _) hw
  refine Errand.withstands_bind.mpr (Errand.Withstands.attempt ?_)
  refine (eventLoopErrand_minds o script 0 D w h).mono (fun _ D w hw => ?_) fun D w hw cause => ?_
  · exact hrest _ D w hw
  · exact hrest _ D w hw

end Worker
end DemandPager
