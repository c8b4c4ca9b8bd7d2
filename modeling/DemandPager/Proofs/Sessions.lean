/-
# Calls on a pager that serves

A session begins when a pager is started. Callers create objects and release them, one call
after the other, each call with any result; in between they access objects, and the worker
handles the faults. As long as the worker serves, the index of handles agrees with its registry
(`Pager.Session.agrees`): callers find for an address the handle of the object that the worker
finds, and the handles on the index are those that are alive. A creation ends with a handle that
is on the index, unless the worker refuses it or breaks off (`Pager.Created`).

Key definitions: `Pager.InStep`, `Pager.Created`, `Pager.Session`.
Key theorems: `Pager.create_inStep`, `Pager.destroy_inStep`, `Pager.wake_inStep`,
`Pager.Session.agrees`.
-/
import DemandPager.Proofs.Budget
import DemandPager.Proofs.Directory

namespace DemandPager

variable {π γ : Type}

namespace Pager

open Worker (Ends serveWakeup)

variable {p q : Pager π γ} {desk : Desk γ} {handles : List Handle}

/-- The worker of a pager, with these books. -/
def workerAt (p : Pager π γ) (desk : Desk γ) : Worker π γ := { toSite := p.site, toDesk := desk }

/-- The pager is started and not given up, and while it serves the ledger is right. -/
structure InStep (p : Pager π γ) (handles : List Handle) : Prop where
  started : p.started = true
  attached : p.gone = false
  ledger : ∀ desk, p.thread = .serving desk → (p.workerAt desk).Ledger handles

theorem InStep.of_ledger {w : Worker π γ} (hstarted : p.started = true) (hgone : p.gone = false)
    (hsite : p.site = w.toSite) (hthread : p.thread = .serving w.toDesk) (hw : w.Ledger handles) :
    p.InStep handles := by
  refine ⟨hstarted, hgone, fun desk hdesk => ?_⟩
  rw [hthread] at hdesk
  cases hdesk
  unfold workerAt
  rw [hsite]
  exact hw

theorem serving_or_over (p : Pager π γ) :
    (∃ desk, p.thread = .serving desk) ∨ p.isRunning = false := by
  unfold isRunning
  cases p.thread with
  | serving desk => exact .inl ⟨desk, rfl⟩
  | absent | ended | died => exact .inr rfl

/-- A pager whose worker is over does not serve any more. -/
theorem InStep.of_over (hstarted : p.started = true) (hgone : p.gone = false)
    (hover : p.isRunning = false) : p.InStep handles := by
  refine ⟨hstarted, hgone, fun desk hdesk => ?_⟩
  unfold isRunning at hover
  rw [hdesk] at hover
  cases hover

section Wake

variable [Paging π] {tokens : List Nat}

theorem wake_over (hover : p.isRunning = false) (tokens : List Nat) : p.wake tokens = p := by
  unfold isRunning at hover
  unfold wake
  cases hthread : p.thread with
  | serving desk =>
    rw [hthread] at hover
    cases hover
  | absent => rfl
  | ended outcome => rfl
  | died => rfl

/-- After a wakeup the worker serves on, or its thread ends or dies. -/
theorem wake_cases {post : Option (Except PagerError Unit) → Worker π γ → Prop}
    {fail : Failure → Worker π γ → Prop} (hthread : p.thread = .serving desk)
    (hends : Ends (serveWakeup tokens) (p.workerAt desk) post fail) :
    (∃ w, post none w ∧ p.wake tokens = { p with site := w.toSite, thread := .serving w.toDesk }) ∨
    (∃ outcome w, post (some outcome) w ∧ p.wake tokens = p.endThread w.toSite (.ended outcome)) ∨
    ∃ f w, fail f w ∧ p.wake tokens = p.endThread w.toSite .died := by
  unfold wake
  rw [hthread]
  show _ ∨ _
  cases hact : serveWakeup tokens (p.workerAt desk) with
  | ok outcome w =>
    have hpost := hends.of_ok hact
    unfold workerAt at hact
    simp only [hact]
    cases outcome with
    | none => exact .inl ⟨w, hpost, rfl⟩
    | some outcome => exact .inr (.inl ⟨outcome, w, hpost, rfl⟩)
  | error f w =>
    have hfail := hends.of_error hact
    unfold workerAt at hact
    simp only [hact]
    exact .inr (.inr ⟨f, w, hfail, rfl⟩)

end Wake

/-! ### Creating objects -/

section Calls

variable [Paging π] {geometry : Geometry} {callbacks : Callbacks γ}

/-- The handle that a creation grants. -/
def granted : Option (Except PagerError Handle) → List Handle
  | some (.ok h) => [h]
  | _ => []

/-- How a creation ends: with a handle that callers find, with the refusal of the worker, or
without an answer since the worker broke off. -/
inductive Created (p q : Pager π γ) : Option (Except PagerError Handle) → Prop
  | placed {h : Handle} (hserves : q.isRunning = true) (hfound : q.lookup h.start = some h) :
      Created p q (some (.ok h))
  | refused {cause : PagerError} (hserves : q.isRunning = true)
      (hanswer : q.site.exchange.answerTo p.site.exchange.completions.length =
        some (.refused cause)) : Created p q (some (.error cause))
  | unanswered (hdied : q.thread = .died) : Created p q none

/-- How a release ends: the handle is not alive any more, or it is alive and the index is as it
was, or there is no answer since the worker broke off. -/
inductive Destroyed (h : Handle) (p q : Pager π γ) : Option (Except PagerError Unit) → Prop
  | gone (hserves : q.isRunning = true) (hdead : q.isAlive h = false) :
      Destroyed h p q (some (.ok ()))
  | kept {cause : PagerError} (hserves : q.isRunning = true) (halive : q.isAlive h = true)
      (hindex : q.site.exchange.index = p.site.exchange.index) :
      Destroyed h p q (some (.error cause))
  | unanswered (hdied : q.thread = .died) : Destroyed h p q none

omit [Paging π] in
theorem isAlive_eq (p : Pager π γ) (h : Handle) : p.isAlive h = aliveAt p.site.gates h.gate :=
  p.site.alive_gate h.gate

omit [Paging π] in
/-- The handles on the index are alive. -/
theorem InStep.alive (h : p.InStep handles) (hthread : p.thread = .serving desk)
    {e : Interval (Object γ)} (he : e.entry ∈ p.site.exchange.index.toList) :
    p.isAlive e.handle = true := by
  have hledger := h.ledger desk hthread
  rw [show p.site.exchange.index.toList = _ from hledger.listing] at he
  obtain ⟨x, hx, hxe⟩ := List.mem_map.mp he
  have hgate : x.value.gate = e.value.gate := congrArg (fun i => i.value.gate) hxe
  rw [isAlive_eq]
  show aliveAt p.site.gates e.value.gate = true
  rw [← hgate]
  exact hledger.census.alive x hx

omit [Paging π] in
/-- The site from which a new object is asked for. -/
def numbered (p : Pager π γ) : Site π γ :=
  { p.site with exchange := { p.site.exchange with nextId := p.site.exchange.nextId + 1 } }

omit [Paging π] in
/-- The object that is asked for. -/
def draft (p : Pager π γ) (geometry : Geometry) (callbacks : Callbacks γ) : Draft γ :=
  ⟨p.site.exchange.nextId, geometry, callbacks⟩

/-- A creation goes by the answer that is there after the wakeup. -/
theorem create_eq (hstarted : p.started = true) (hopen : p.site.exchange.channel.closed = false)
    {r : Pager π γ}
    (hwake : ({ p with site := p.numbered.asked (p.draft geometry callbacks) } : Pager π γ).wake
      [controlToken] = r) :
    (r.site.exchange.answerTo p.site.exchange.completions.length = none →
      p.create geometry callbacks = (none, r)) ∧
    (∀ cause, r.site.exchange.answerTo p.site.exchange.completions.length = some (.refused cause) →
      p.create geometry callbacks = (some (.error cause), r)) ∧
    ∀ (start : Nat) (h : Handle) (x : Exchange γ),
      r.site.exchange.answerTo p.site.exchange.completions.length = some (.placed start) →
      h = ⟨p.site.exchange.nextId, start, geometry, p.site.gates.length⟩ →
      r.site.exchange.enroll h = .ok x → x.stopping = false →
      p.create geometry callbacks =
        (some (.ok h), { r with site := { r.site with exchange := x } }) := by
  have hsubmit := Site.submit_allocate (s := p.numbered) hopen (p.draft geometry callbacks)
  unfold numbered draft at hsubmit hwake
  have hgoes : ¬(!p.started) = true := by
    rw [hstarted]
    decide
  refine ⟨fun hanswer => ?_, fun cause hanswer => ?_, fun start h x hanswer hh henroll hx => ?_⟩
  all_goals unfold create
  all_goals rw [if_neg hgoes]
  all_goals simp only [hsubmit, hwake, hanswer]
  subst hh
  have hx' : ¬x.stopping = true := by
    rw [hx]
    decide
  simp only [henroll, if_neg hx']

/-- **A creation keeps the ledger.** It ends with a handle that callers find, unless the worker
refuses or breaks off. -/
theorem create_inStep (h : p.InStep handles) (hthread : p.thread = .serving desk)
    (hbuilt : geometry.Built) {result : Option (Except PagerError Handle)}
    (heq : p.create geometry callbacks = (result, q)) :
    q.InStep (handles ++ granted result) ∧ Created p q result := by
  have hledger := h.ledger desk hthread
  have hnumbered : ({ toSite := p.numbered, toDesk := desk } : Worker π γ).Ledger handles :=
    ⟨hledger.toReady.withSite rfl rfl rfl, hledger.listing, hledger.census⟩
  have hdraft : (p.draft geometry callbacks).geometry.Built := hbuilt
  rcases wake_cases (p := { p with site := p.numbered.asked (p.draft geometry callbacks) }) hthread
      (hnumbered.allocate hdraft) with
    ⟨w, ⟨-, hw⟩, hwake⟩ | ⟨outcome, w, ⟨hnone, -⟩, -⟩ | ⟨f, w, hw, hwake⟩
  · obtain ⟨-, hrefused, hplaced⟩ := create_eq h.started hledger.isOpen hwake
    rcases hw with ⟨start, index, handle, hanswer, hhandle, henroll, hfind, hledger'⟩ |
      ⟨cause, hanswer, hledger'⟩
    · rw [hplaced start handle _ hanswer hhandle henroll hledger'.goesOn] at heq
      cases heq
      refine ⟨InStep.of_ledger (w := { w with exchange := { w.exchange with index } }) h.started
        h.attached rfl rfl hledger', .placed rfl ?_⟩
      have hstart : handle.start = start := by rw [hhandle]
      unfold lookup
      rw [hstart, hfind]
      rfl
    · rw [hrefused cause hanswer] at heq
      cases heq
      refine ⟨?_, .refused rfl hanswer⟩
      rw [show granted (some (.error cause)) = [] from rfl, List.append_nil]
      exact .of_ledger h.started h.attached rfl rfl hledger'
  · cases hnone
  · rw [(create_eq h.started hledger.isOpen hwake).1 hw] at heq
    cases heq
    exact ⟨.of_over h.started h.attached rfl, .unanswered rfl⟩

/-- A pager whose worker is over stays so. -/
theorem create_over (hover : p.isRunning = false) {result : Option (Except PagerError Handle)}
    (heq : p.create geometry callbacks = (result, q)) :
    q.started = p.started ∧ q.gone = p.gone ∧ q.isRunning = false := by
  have hwake : ∀ s : Site π γ, ({ p with site := s } : Pager π γ).wake [controlToken] =
      { p with site := s } := fun s => wake_over (p := { p with site := s }) hover _
  unfold create at heq
  simp only [hwake] at heq
  repeat' split at heq
  all_goals cases heq
  all_goals exact ⟨rfl, rfl, hover⟩

/-! ### Releasing objects -/

/-- A release goes by the answer that is there after the wakeup. -/
theorem destroy_eq {h handle : Handle} {index : IntervalMap Handle} (hgone : p.gone = false)
    (halive : (p.site.gate h.gate).alive = true)
    (hopen : p.site.exchange.channel.closed = false)
    (hremove : p.site.exchange.index.remove h.start = .ok (handle, index)) {r : Pager π γ}
    (hwake : ({ p with site := p.site.leaving h index } : Pager π γ).wake [controlToken] = r) :
    (r.site.exchange.answerTo p.site.exchange.completions.length = none →
      p.destroy h = (none, r)) ∧
    (r.site.exchange.answerTo p.site.exchange.completions.length = some .released →
      p.destroy h = (some (.ok ()), r)) ∧
    ∀ (cause : PagerError) (x : Exchange γ),
      r.site.exchange.answerTo p.site.exchange.completions.length = some (.refused cause) →
      cause ≠ .shuttingDown → r.site.exchange.enroll h = .ok x →
      p.destroy h = (some (.error cause), { r with site := { r.site with
        gates := r.site.gates.modify h.gate Gate.revive, exchange := x } }) := by
  have hbegin := Site.beginDestroy_alive halive hopen hremove
  have hattached : (!p.gone) = true := by
    rw [hgone]
    rfl
  refine ⟨fun hanswer => ?_, fun hanswer => ?_, fun cause x hanswer hcause henroll => ?_⟩
  all_goals unfold destroy
  all_goals rw [hattached]
  all_goals simp only [hbegin, hwake, hanswer]
  · rfl
  · cases cause with
    | shuttingDown => exact absurd rfl hcause
    | _ => simp only [Site.endDestroy, Site.reopen, Site.modifyGate, henroll, if_true]

/-- **A release keeps the ledger**, whatever comes of it. Its handle is not alive any more, or it
is on the index again. -/
theorem destroy_inStep (hcandid : Paging.Candid π) (h : p.InStep handles)
    (hthread : p.thread = .serving desk) {handle : Handle} (hhandle : handle ∈ handles)
    {result : Option (Except PagerError Unit)} (heq : p.destroy handle = (result, q)) :
    q.InStep handles ∧ Destroyed handle p q result := by
  have hledger := h.ledger desk hthread
  by_cases halive : (p.site.gate handle.gate).alive = true
  · have hgate : aliveAt p.site.gates handle.gate = true := by
      rw [← Site.alive_gate]
      exact halive
    obtain ⟨e, he, rfl⟩ := hledger.census.known handle hhandle hgate
    have hentry : e.entry ∈ p.site.exchange.index.toList := by
      rw [show p.site.exchange.index.toList = _ from hledger.listing]
      exact List.mem_map_of_mem he
    obtain ⟨index, hremove⟩ := hledger.listing.remove hledger.filed.objects he
    rcases wake_cases (p := { p with site := p.site.leaving e.handle index }) hthread
        (hledger.release hcandid he hremove) with
      ⟨w, ⟨-, hw⟩, hwake⟩ | ⟨outcome, w, ⟨hnone, -⟩, -⟩ | ⟨f, w, hw, hwake⟩
    · obtain ⟨-, hreleased, hrefused⟩ := destroy_eq h.attached halive hledger.isOpen hremove hwake
      rcases hw with ⟨hanswer, hdead, hledger'⟩ | ⟨cause, hanswer, hcause, henroll, hledger'⟩
      · rw [hreleased hanswer] at heq
        cases heq
        exact ⟨.of_ledger h.started h.attached rfl rfl hledger',
          .gone rfl ((isAlive_eq ..).trans hdead)⟩
      · rw [hrefused cause _ hanswer hcause henroll] at heq
        cases heq
        have hinStep := InStep.of_ledger (w := { w with
            gates := w.gates.modify e.value.gate Gate.revive
            exchange := { w.exchange with index := p.site.exchange.index } })
          (p := { p with thread := .serving w.toDesk, site := { w.toSite with
            gates := w.gates.modify e.value.gate Gate.revive
            exchange := { w.exchange with index := p.site.exchange.index } } })
          h.started h.attached rfl rfl hledger'
        exact ⟨hinStep, .kept rfl (hinStep.alive rfl hentry) rfl⟩
    · cases hnone
    · rw [(destroy_eq h.attached halive hledger.isOpen hremove hwake).1 hw] at heq
      cases heq
      exact ⟨.of_over h.started h.attached rfl, .unanswered rfl⟩
  · -- the handle was released before
    rw [Bool.not_eq_true] at halive
    unfold destroy Site.beginDestroy at heq
    rw [halive, if_pos (by decide)] at heq
    cases heq
    refine ⟨h, .gone ?_ halive⟩
    unfold isRunning
    rw [hthread]

theorem destroy_over (hover : p.isRunning = false) {handle : Handle}
    {result : Option (Except PagerError Unit)} (heq : p.destroy handle = (result, q)) :
    q.started = p.started ∧ q.gone = p.gone ∧ q.isRunning = false := by
  have hwake : ∀ s : Site π γ, ({ p with site := s } : Pager π γ).wake [controlToken] =
      { p with site := s } := fun s => wake_over (p := { p with site := s }) hover _
  unfold destroy at heq
  simp only [hwake] at heq
  repeat' split at heq
  all_goals cases heq
  all_goals exact ⟨rfl, rfl, hover⟩

/-! ### Other wakeups -/

/-- What happens between two calls keeps the ledger. -/
theorem wake_inStep (h : p.InStep handles) (pages : π) (client : γ) (tokens : List Nat) :
    (({ p with site := { p.site with pages, client } } : Pager π γ).wake tokens).InStep
      handles := by
  set r : Pager π γ := { p with site := { p.site with pages, client } } with hr
  rcases p.serving_or_over with ⟨desk, hthread⟩ | hover
  · have hledger : (r.workerAt desk).Ledger handles :=
      (h.ledger desk hthread).withPages pages client
    rcases wake_cases (p := r) hthread
        (Worker.serveWakeup_unasked tokens hledger.toInOrder hledger.queue) with
      ⟨w, hw, hwake⟩ | ⟨outcome, w, -, hwake⟩ | ⟨f, w, -, hwake⟩
    · obtain ⟨hin, hunasked⟩ := hw rfl
      rw [hwake]
      exact .of_ledger h.started h.attached rfl rfl (hledger.unasked hunasked hin)
    · rw [hwake]
      exact .of_over h.started h.attached rfl
    · rw [hwake]
      exact .of_over h.started h.attached rfl
  · rw [wake_over (p := r) hover]
    exact .of_over h.started h.attached hover

/-! ### The start -/

omit [Paging π] in
theorem low_lt_high {high low : Nat} {limits : WaterMarks}
    (h : WaterMarks.ofBytes high low = .ok limits) : limits.low < limits.high := by
  unfold WaterMarks.ofBytes at h
  split at h
  · cases h
  · cases h
    exact Nat.lt_of_not_le ‹_›

/-- A pager that is not started yet, with nothing asked for and a budget in order if it has
one. -/
structure Blank (p : Pager π γ) : Prop where
  site : ∃ pages client, p.site = { pages, client }
  attached : p.gone = false
  unstarted : p.started = false
  marks : ∀ limits, p.limits = some limits → limits.low < limits.high

omit [Paging π] in
theorem blank_ofOptions {descriptors : Descriptors} {pages : π} {client : γ} {o : Options}
    (h : ofOptions descriptors pages client o = .ok p) : p.Blank := by
  unfold ofOptions at h
  cases hmarks : o.normalize.waterMarks with
  | error cause =>
    simp only [hmarks] at h
    cases h
  | ok limits =>
    simp only [hmarks] at h
    cases hopen : descriptors.open with
    | error cause =>
      rw [hopen] at h
      cases h
    | ok _ =>
      rw [hopen] at h
      cases h
      refine ⟨⟨pages, client, rfl⟩, rfl, rfl, ?_⟩
      rintro marks rfl
      unfold Options.waterMarks at hmarks
      split at hmarks
      · rename_i high low _ _
        cases hbytes : WaterMarks.ofBytes high low with
        | error cause =>
          rw [hbytes] at hmarks
          cases hmarks
        | ok marks' =>
          rw [hbytes] at hmarks
          cases hmarks
          exact low_lt_high hbytes
      · cases hmarks
      · cases hmarks

omit [Paging π] in
theorem Blank.setLimits (h : p.Blank) {high low : Nat} (heq : p.setLimits high low = .ok q) :
    q.Blank := by
  unfold Pager.setLimits at heq
  split at heq
  · cases heq
  · split at heq
    · cases heq
    · cases hbytes : WaterMarks.ofBytes high low with
      | error cause =>
        rw [hbytes] at heq
        cases heq
      | ok marks =>
        rw [hbytes] at heq
        cases heq
        refine ⟨h.site, h.attached, h.unstarted, ?_⟩
        rintro limits ⟨⟩
        exact low_lt_high hbytes

omit [Paging π] in
theorem phase_ofOptions {pageSize : Nat} {limits : WaterMarks} {o : Options}
    (h : Desk.ofOptions pageSize limits o = .ok desk) : desk.phase = .running := by
  unfold Desk.ofOptions at h
  obtain ⟨bytes, -, h⟩ := Checked.bind_eq_ok.mp h
  obtain ⟨scratch, -, h⟩ := Checked.bind_eq_ok.mp h
  obtain ⟨ring, -, h⟩ := Checked.bind_eq_ok.mp h
  cases h
  rfl

/-- A pager that was just started has neither objects nor handles. -/
theorem Blank.start (h : p.Blank) {descriptors : Descriptors}
    (heq : p.start descriptors = .ok q) : q.InStep [] := by
  obtain ⟨⟨pages, client, hsite⟩, hattached, hunstarted, hmarks⟩ := h
  unfold Pager.start at heq
  rw [hunstarted, if_neg (by decide)] at heq
  cases hlimits : p.limits with
  | none =>
    rw [hlimits] at heq
    cases heq
  | some limits =>
    rw [hlimits] at heq
    cases hopen : descriptors.open with
    | error cause =>
      rw [hopen] at heq
      cases heq
    | ok _ =>
      rw [hopen] at heq
      obtain ⟨desk, hdesk, heq⟩ := Checked.bind_eq_ok.mp heq
      obtain ⟨hfiled, howes⟩ := Desk.ofOptions_filed hdesk
      obtain ⟨hobjects, -, -, -, hbudget, -⟩ := Desk.ofOptions_eq_ok hdesk
      have hquiet : ¬p.site.exchange.channel.bell.readable = true := by
        rw [hsite]
        exact Bool.false_ne_true
      simp only [if_neg hquiet] at heq
      cases heq
      refine InStep.of_ledger (w := { toSite := p.site, toDesk := desk }) rfl hattached rfl rfl ?_
      have hempty : desk.objects = .empty := congrArg IntervalMap.mk hobjects
      have hlow : desk.limits.low < desk.limits.high := by
        rw [hbudget]
        exact hmarks limits hlimits
      rw [hsite]
      refine ⟨⟨⟨hfiled, howes, hlow, fun m hm => by cases hm⟩, phase_ofOptions hdesk,
        rfl, rfl, rfl⟩,
        ?_, ?_⟩
      · show Listing .empty desk.objects
        rw [hempty]
        exact Listing.empty
      · show Census [] desk.objects.toList []
        rw [hobjects]
        exact Census.nil []

/-! ### Sessions -/

/-- The pager was started and the calls so far granted these handles. Between two calls the
memory and the callers' state may change in any way, and the worker may be woken for any events;
an access to a missing page does both. -/
inductive Session : Pager π γ → List Handle → Prop
  | start {descriptors descriptors' : Descriptors} {pages : π} {client : γ} {o : Options}
      {p q r : Pager π γ} (hp : ofOptions descriptors pages client o = .ok p)
      (hq : q = p ∨ ∃ high low, p.setLimits high low = .ok q)
      (hr : q.start descriptors' = .ok r) : Session r []
  | create {p q : Pager π γ} {handles : List Handle} {geometry : Geometry} {callbacks : Callbacks γ}
      {result : Option (Except PagerError Handle)} (h : Session p handles)
      (hbuilt : geometry.Built) (heq : p.create geometry callbacks = (result, q)) :
      Session q (handles ++ granted result)
  | destroy {p q : Pager π γ} {handles : List Handle} {handle : Handle}
      {result : Option (Except PagerError Unit)} (h : Session p handles)
      (hhandle : handle ∈ handles) (heq : p.destroy handle = (result, q)) : Session q handles
  | meanwhile {p : Pager π γ} {handles : List Handle} (h : Session p handles) (pages : π)
      (client : γ) (tokens : List Nat) :
      Session (({ p with site := { p.site with pages, client } } : Pager π γ).wake tokens) handles

theorem Session.created (h : Session p handles) (hbuilt : geometry.Built) {handles' : List Handle}
    (hgranted : handles ++ granted (p.create geometry callbacks).1 = handles') :
    Session (p.create geometry callbacks).2 handles' := by
  rw [← hgranted]
  exact .create h hbuilt rfl

theorem Session.destroyed (h : Session p handles) {handle : Handle} (hhandle : handle ∈ handles) :
    Session (p.destroy handle).2 handles :=
  .destroy h hhandle rfl

/-- Every call keeps the ledger, and so does what happens in between. -/
theorem Session.inStep (hcandid : Paging.Candid π) (h : Session p handles) : p.InStep handles := by
  induction h with
  | start hp hq hr =>
    rcases hq with rfl | ⟨high, low, hq⟩
    · exact (blank_ofOptions hp).start hr
    · exact ((blank_ofOptions hp).setLimits hq).start hr
  | @create p q handles geometry callbacks result _ hbuilt heq ih =>
    rcases p.serving_or_over with ⟨desk, hthread⟩ | hover
    · exact (create_inStep ih hthread hbuilt heq).1
    · obtain ⟨hstarted, hgone, hover'⟩ := create_over hover heq
      exact .of_over (hstarted.trans ih.started) (hgone.trans ih.attached) hover'
  | @destroy p q handles handle result _ hhandle heq ih =>
    rcases p.serving_or_over with ⟨desk, hthread⟩ | hover
    · exact (destroy_inStep hcandid ih hthread hhandle heq).1
    · obtain ⟨hstarted, hgone, hover'⟩ := destroy_over hover heq
      exact .of_over (hstarted.trans ih.started) (hgone.trans ih.attached) hover'
  | meanwhile _ pages client tokens ih => exact wake_inStep ih pages client tokens

/-- **The index of handles agrees with the registry of objects.** After any calls, as long as the
worker serves: the index holds the reservations of the objects with their handles; a handle that
was granted is alive exactly if it is on the index, and all handles on the index are alive. What
is found for an address is the handle of what the worker finds there, that is, the handle on the
index whose reservation contains the address. And a creation ends with a handle that is on the
index, unless the worker refuses the object or breaks off; a release ends with a handle that is
not alive any more or, if the worker refuses, with the index as it was. -/
theorem Session.agrees (hcandid : Paging.Candid π) (h : Session p handles)
    (hthread : p.thread = .serving desk) :
    p.site.exchange.index.toList = desk.objects.toList.map Interval.entry ∧
    (∀ e ∈ desk.objects.toList, e.len = e.value.geometry.trueSize) ∧
    (∀ x ∈ p.site.exchange.index.toList, p.isAlive x.value = true) ∧
    (∀ handle ∈ handles, p.isAlive handle = true ↔
      ∃ x ∈ p.site.exchange.index.toList, x.value = handle) ∧
    (∀ address, p.lookup address = (desk.objects.find? address).map Interval.handle) ∧
    (∀ address handle, p.lookup address = some handle ↔
      (∃ x ∈ p.site.exchange.index.toList, x.value = handle) ∧ handle.contains address = true) ∧
    (∀ (geometry : Geometry) (callbacks : Callbacks γ) (result : Option (Except PagerError Handle))
      (q : Pager π γ), geometry.Built → p.create geometry callbacks = (result, q) →
        Created p q result) ∧
    ∀ handle ∈ handles, ∀ (result : Option (Except PagerError Unit)) (q : Pager π γ),
      p.destroy handle = (result, q) → Destroyed handle p q result := by
  have hinStep := h.inStep hcandid
  have hledger := hinStep.ledger desk hthread
  have hobjects : desk.objects.Sound := hledger.filed.objects
  have hlisting : Listing p.site.exchange.index desk.objects := hledger.listing
  have hlen : ∀ e ∈ desk.objects.toList, e.len = e.value.geometry.trueSize := hledger.filed.len
  have halive : ∀ x ∈ p.site.exchange.index.toList, p.isAlive x.value = true := by
    intro x hx
    rw [hlisting] at hx
    obtain ⟨e, he, rfl⟩ := List.mem_map.mp hx
    rw [← hlisting] at hx
    exact hinStep.alive hthread hx
  have hlookup : ∀ address,
      p.lookup address = (desk.objects.find? address).map Interval.handle := by
    intro address
    unfold lookup
    rw [hlisting.find? hobjects, Option.map_map]
    rfl
  refine ⟨hlisting, hlen, halive, fun handle hhandle => ?_, hlookup,
    fun address handle => ?_, ?_, ?_⟩
  · constructor
    · intro hgate
      rw [isAlive_eq] at hgate
      obtain ⟨e, he, rfl⟩ := hledger.census.known handle hhandle hgate
      refine ⟨e.entry, ?_, rfl⟩
      rw [hlisting]
      exact List.mem_map_of_mem he
    · rintro ⟨x, hx, rfl⟩
      exact halive x hx
  · rw [hlookup, Option.map_eq_some_iff]
    constructor
    · rintro ⟨e, hfind, rfl⟩
      obtain ⟨he, hholds⟩ := (IntervalMap.find?_eq_some hobjects).mp hfind
      refine ⟨⟨e.entry, ?_, rfl⟩, (Interval.contains_handle (hlen e he)).mpr hholds⟩
      rw [hlisting]
      exact List.mem_map_of_mem he
    · rintro ⟨⟨x, hx, rfl⟩, hcontains⟩
      rw [hlisting] at hx
      obtain ⟨e, he, rfl⟩ := List.mem_map.mp hx
      have hholds := (Interval.contains_handle (hlen e he)).mp hcontains
      exact ⟨e, (IntervalMap.find?_eq_some hobjects).mpr ⟨he, hholds⟩, rfl⟩
  · intro geometry callbacks result q hbuilt heq
    exact (create_inStep hinStep hthread hbuilt heq).2
  · intro handle hhandle result q heq
    exact (destroy_inStep hcandid hinStep hthread hhandle heq).2

end Calls

/-! ### A session -/

open Worker (sampleObject sampleObject_built)

def sampleOptions : Options :=
  { ringCapacity := 4, highWaterMark := some 64, lowWaterMark := some 32 }

/-- A pager with a budget of four pages. -/
def sampleBlank : Pager ScriptedMemory Unit where
  options := sampleOptions.normalize
  limits := some ⟨64, 32⟩
  site := { pages := { pageSize := 16 }, client := () }

def sampleStarted : Pager ScriptedMemory Unit :=
  match sampleBlank.start .available with
  | .ok p => p
  | .error _ => sampleBlank

/-- The memory is changed and the worker woken for reports. -/
def sampleReport (p : Pager ScriptedMemory Unit) (f : ScriptedMemory → ScriptedMemory) :
    Pager ScriptedMemory Unit :=
  ({ p with site := { p.site with pages := f p.site.pages, client := () } } : Pager _ _).wake
    [faultToken]

theorem Session.reported {p : Pager ScriptedMemory Unit} (h : Session p handles)
    (f : ScriptedMemory → ScriptedMemory) : Session (sampleReport p f) handles :=
  .meanwhile h _ () [faultToken]

/-- An object is created. -/
def sampleCreated : Option (Except PagerError Handle) × Pager ScriptedMemory Unit :=
  sampleStarted.create sampleObject.geometry sampleObject.callbacks

/-- After a fault a second object would overlap the first one, so it is refused. -/
def sampleRefused : Option (Except PagerError Handle) × Pager ScriptedMemory Unit :=
  (sampleReport sampleCreated.2 fun m =>
    { m with faults := [0x10000010], detour := some 0x10000040 }).create
      sampleObject.geometry sampleObject.callbacks

def sampleFound : Handle := ⟨1, 0x10000000, sampleObject.geometry, 0⟩

/-- The memory refuses to let the first object go. -/
def sampleKept : Option (Except PagerError Unit) × Pager ScriptedMemory Unit :=
  (sampleReport sampleRefused.2 fun m => m.failNext .unregister 1).destroy sampleFound

theorem sampleKept_session : Session sampleKept.2 [sampleFound] := by
  have hblank : ofOptions .available ({ pageSize := 16 } : ScriptedMemory) () sampleOptions =
      .ok sampleBlank := rfl
  have hstarted : sampleBlank.start .available = .ok sampleStarted := rfl
  have hcreated : Session sampleCreated.2 [sampleFound] :=
    (Session.start hblank (.inl rfl) hstarted).created sampleObject_built (by decide +kernel)
  have hrefused : Session sampleRefused.2 [sampleFound] :=
    (hcreated.reported _).created sampleObject_built (by decide +kernel)
  exact (hrefused.reported _).destroyed (List.mem_singleton.mpr rfl)

/-- The object whose release was refused is found through the index where the worker has it. -/
theorem agrees_sample : ∃ desk, sampleKept.2.thread = .serving desk ∧
    sampleKept.2.site.exchange.index.toList = desk.objects.toList.map Interval.entry ∧
    sampleKept.2.lookup 0x1000007f = some sampleFound ∧
    (desk.objects.find? 0x1000007f).map Interval.handle = some sampleFound := by
  have hserves : sampleKept.2.isRunning = true := by decide +kernel
  have hfound : sampleKept.2.lookup 0x1000007f = some sampleFound := by decide +kernel
  rcases sampleKept.2.serving_or_over with ⟨desk, hthread⟩ | hover
  · obtain ⟨hindex, -, -, -, hlookup, -⟩ :=
      Session.agrees ScriptedMemory.candid sampleKept_session hthread
    exact ⟨desk, hthread, hindex, hfound, (hlookup 0x1000007f).symm.trans hfound⟩
  · exact absurd hserves (Bool.eq_false_iff.mp hover)

end Pager

end DemandPager
