/-
# Attempts to release an object

A handle may be released again and again, from any clone. An attempt retires the gate, takes the
handle off the index and asks the worker; if the worker refuses, all of it is taken back, and the
handle may be released once more. Such an attempt has taken place in full or not at all
(`Handle.attempts_settle`): one that fails leaves the gate, the index and the memory as they were,
and after one that succeeds the gate is dead and the handle is off the index. Since a dead gate is
never asked for, at most one request is granted, and it is the last.

What others do between the steps of an attempt, and between attempts, is arbitrary, as long as it
leaves alone what is the handle's own: the life of its gate and its range on the index
(`Handle.Others`).

Key definitions: `Site.destroy`, `Handle.Others`, `Handle.Attempts`, `Handle.Restored`.
Key theorems: `Site.beginDestroy_begins`, `Handle.Standing.call`, `Handle.attempts_settle`,
`Pager.destroy_eq_site`.
-/
import DemandPager.Pager
import DemandPager.Proofs.Directory
import DemandPager.Proofs.Requests

namespace DemandPager

variable {π γ : Type}

/-! ### One release -/

/-- A whole release. What happens while the caller waits for the worker, and the answer that it gets
in the end, are given. -/
def Site.destroy (s : Site π γ) (h : Handle) (attached : Bool) (meanwhile : Site π γ → Site π γ)
    (answer : Answer) : Except PagerError Unit × Site π γ :=
  match s.beginDestroy h attached with
  | (.settled, s) => (.ok (), s)
  | (.waiting _ indexed, s) => (meanwhile s).endDestroy h indexed answer
  | (.refused cause, s) => (.error cause, s)

/-- The answers that a release gets that got so far: one if the worker was asked. -/
def Site.Destroy.answers (answer : Answer) : Site.Destroy → List Answer
  | .waiting .. => [answer]
  | .settled | .refused _ => []

/-- A release by a pager is one of the site, with the wakeup of the worker meanwhile. -/
theorem Pager.destroy_eq_site [Paging π] {p q : Pager π γ} {h : Handle}
    {result : Except PagerError Unit} (heq : p.destroy h = (some result, q)) :
    ∃ answer, p.site.destroy h (!p.gone)
      (fun s => (({ p with site := s } : Pager π γ).wake [controlToken]).site) answer =
        (result, q.site) := by
  unfold destroy at heq
  unfold Site.destroy
  generalize p.site.beginDestroy h (!p.gone) = begun at heq ⊢
  obtain ⟨outcome, s⟩ := begun
  cases outcome with
  | settled =>
    cases heq
    exact ⟨.released, rfl⟩
  | refused cause =>
    cases heq
    exact ⟨.released, rfl⟩
  | waiting ticket indexed =>
    simp only at heq ⊢
    split at heq
    · cases heq
    · rename_i answer hanswer
      cases heq
      exact ⟨answer, rfl⟩

namespace Handle

variable {h : Handle} {attached : Bool} {s s' w : Site π γ} {x : Exchange γ} {answer : Answer}
  {answers : List Answer} {cause : PagerError}

/-- The entry of a handle on the index. -/
def entry (h : Handle) : Interval Handle where
  start := h.start
  len := h.geometry.trueSize
  value := h

/-- An entry that does not meet the range of the handle. -/
def Clear (h : Handle) (e : Interval Handle) : Prop := e.Apart h.start h.geometry.trueSize

/-- The index has no foreign entry over the range of the handle. -/
structure Own (h : Handle) (index : IntervalMap Handle) : Prop where
  sound : index.Sound
  own : ∀ e ∈ index.toList, e = h.entry ∨ h.Clear e

/-- Whether the worker is to be asked: the object is alive, the pager is there, and it accepts
requests. -/
def Asks (h : Handle) (attached : Bool) (s : Site π γ) : Prop :=
  aliveAt s.gates h.gate = true ∧ attached = true ∧ s.exchange.channel.closed = false

instance (h : Handle) (attached : Bool) (s : Site π γ) : Decidable (h.Asks attached s) :=
  inferInstanceAs (Decidable (_ ∧ _ ∧ _))

theorem Own.eq_entry (hown : h.Own x.index) (hsize : 0 < h.geometry.trueSize) {e : Interval Handle}
    (he : e ∈ x.index.toList) (hstart : e.start = h.start) : e = h.entry := by
  rcases hown.own e he with heq | hclear
  · exact heq
  · have hpos := hown.sound.len_pos e he
    unfold Clear Interval.Apart at hclear
    omega

/-- The handle is taken off the index if it is there. -/
theorem unindex_cases (hown : h.Own x.index) (hsize : 0 < h.geometry.trueSize) :
    (h.entry ∈ x.index.toList ∧ ∃ index, x.index.remove h.start = .ok (h, index) ∧
      x.unindex h.start = (true, { x with index })) ∨
    (∀ e ∈ x.index.toList, e.start ≠ h.start) ∧ x.unindex h.start = (false, x) := by
  by_cases hentry : h.entry ∈ x.index.toList
  · obtain ⟨index, hremove⟩ := IntervalMap.remove_of_mem hown.sound hentry
    have hremove' : x.index.remove h.start = .ok (h, index) := hremove
    refine .inl ⟨hentry, index, hremove', ?_⟩
    unfold Exchange.unindex
    rw [hremove']
  · have hnone : ∀ e ∈ x.index.toList, e.start ≠ h.start := by
      intro e he hstart
      exact hentry (hown.eq_entry hsize he hstart ▸ he)
    refine .inr ⟨hnone, ?_⟩
    unfold Exchange.unindex
    cases hremove : x.index.remove h.start with
    | error cause => rfl
    | ok removed =>
      obtain ⟨e, he, hstart, -⟩ := IntervalMap.remove_eq_ok hown.sound hremove
      exact absurd hstart (hnone e he)

end Handle

/-- How a release begins. -/
inductive Site.Begins (h : Handle) (attached : Bool) (s : Site π γ) :
    Site.Destroy × Site π γ → Prop
  | dead (hdead : aliveAt s.gates h.gate = false) : Begins h attached s (.settled, s)
  | alone (halive : aliveAt s.gates h.gate = true) (hattached : attached = false) :
      Begins h attached s (.settled, s.modifyGate h.gate Gate.retire)
  | unheard {indexed : Bool} {x : Exchange γ} (halive : aliveAt s.gates h.gate = true)
      (hattached : attached = true) (hclosed : s.exchange.channel.closed = true)
      (hunindex : s.exchange.unindex h.start = (indexed, x)) :
      Begins h attached s (.settled, { s with
        gates := s.gates.modify h.gate Gate.retire
        exchange := x.openTicket.2 })
  | asks {indexed : Bool} {x : Exchange γ} (hasks : h.Asks attached s)
      (hunindex : s.exchange.unindex h.start = (indexed, x)) :
      Begins h attached s (.waiting s.exchange.completions.length indexed, { s with
        gates := s.gates.modify h.gate Gate.retire
        exchange := x.posting (.free h.id h.start s.exchange.completions.length) })

theorem Exchange.requestFree_closed {x : Exchange γ} (hclosed : x.channel.closed = true)
    (id start : Nat) : x.requestFree id start = (.error .shuttingDown, x.openTicket.2) := by
  have hsend := send_closed (x := x.openTicket.2) hclosed
  unfold openTicket at hsend
  simp only [requestFree, openTicket, hsend]
  rfl

theorem Site.beginDestroy_begins (s : Site π γ) (h : Handle) (attached : Bool) :
    s.Begins h attached (s.beginDestroy h attached) := by
  unfold beginDestroy
  rw [alive_gate]
  cases halive : aliveAt s.gates h.gate with
  | false => exact .dead halive
  | true =>
    cases hattached : attached with
    | false => exact .alone halive rfl
    | true =>
      rcases hunindex : s.exchange.unindex h.start with ⟨indexed, x⟩
      obtain ⟨index, rfl⟩ := unindex_eq hunindex
      have hunindex' : (s.modifyGate h.gate Gate.retire).exchange.unindex h.start =
          (indexed, { s.exchange with index }) := hunindex
      simp only [Bool.not_true, Bool.false_eq_true, if_false, hunindex']
      cases hclosed : s.exchange.channel.closed with
      | true =>
        rw [Exchange.requestFree_closed (x := { s.exchange with index }) hclosed]
        exact .unheard halive rfl hclosed hunindex
      | false =>
        rw [Exchange.requestFree_open (x := { s.exchange with index }) hclosed]
        exact .asks ⟨halive, rfl, hclosed⟩ hunindex

/-! ### How a release ends -/

/-- A refusal after which the handle is usable again. -/
def Answer.Reopens (a : Answer) : Prop := ∃ cause, a = .refused cause ∧ cause ≠ .shuttingDown

theorem Site.endDestroy_of_not_reopens {a : Answer} (ha : ¬a.Reopens) (s : Site π γ) (h : Handle)
    (indexed : Bool) : s.endDestroy h indexed a = (.ok (), s) := by
  cases a with
  | placed start => rfl
  | released => rfl
  | refused cause =>
    cases cause with
    | shuttingDown => rfl
    | _ => exact absurd ⟨_, rfl, by simp⟩ ha

theorem Site.endDestroy_unindexed {cause : PagerError} (hcause : cause ≠ .shuttingDown)
    (s : Site π γ) (h : Handle) :
    s.endDestroy h false (.refused cause) = (.error cause, s.modifyGate h.gate Gate.revive) := by
  cases cause with
  | shuttingDown => exact absurd rfl hcause
  | _ => rfl

theorem Site.endDestroy_indexed {cause : PagerError} (hcause : cause ≠ .shuttingDown)
    {s : Site π γ} {h : Handle} {index : IntervalMap Handle}
    (hinsert : s.exchange.index.insert h.start h.geometry.trueSize h = .ok index) :
    s.endDestroy h true (.refused cause) = (.error cause, { s with
      gates := s.gates.modify h.gate Gate.revive
      exchange := { s.exchange with index } }) := by
  have henroll : (s.modifyGate h.gate Gate.revive).exchange.enroll h =
      .ok { s.exchange with index } := by
    show (s.exchange.index.insert h.start h.geometry.trueSize h >>= _) = _
    rw [hinsert]
    rfl
  cases cause with
  | shuttingDown => exact absurd rfl hcause
  | _ =>
    simp only [endDestroy, reopen, if_true, henroll]
    rfl

namespace Handle

/-- What others may do to the site: anything that leaves alone the life of the handle's gate and
its range on the index. -/
structure Others (h : Handle) (s s' : Site π γ) : Prop where
  alive : aliveAt s'.gates h.gate = aliveAt s.gates h.gate
  gates : s.gates.length ≤ s'.gates.length
  sound : s'.exchange.index.Sound
  range : ∀ e, ¬h.Clear e → (e ∈ s'.exchange.index.toList ↔ e ∈ s.exchange.index.toList)

/-- A history of releases of a handle whose gate is alive at first, with whatever happens in
between. The pager may go, and then it does not come back. The list has the answers to all
requests that were made. -/
inductive Attempts (h : Handle) : (attached : Bool) → Site π γ → List Answer → Prop
  | start {attached : Bool} {s : Site π γ} (halive : aliveAt s.gates h.gate = true)
      (hown : h.Own s.exchange.index) : Attempts h attached s []
  | others {attached : Bool} {s s' : Site π γ} {answers : List Answer}
      (hrun : Attempts h attached s answers) (hothers : h.Others s s') :
      Attempts h attached s' answers
  | departs {attached : Bool} {s : Site π γ} {answers : List Answer}
      (hrun : Attempts h attached s answers) : Attempts h false s answers
  | call {attached : Bool} {s : Site π γ} {answers : List Answer}
      (hrun : Attempts h attached s answers) (meanwhile : Site π γ → Site π γ) (answer : Answer)
      (hothers : h.Others (s.beginDestroy h attached).2 (meanwhile (s.beginDestroy h attached).2)) :
      Attempts h attached (s.destroy h attached meanwhile answer).2
        (answers ++ (s.beginDestroy h attached).1.answers answer)

/-- What holds between two releases. -/
structure Standing (h : Handle) (attached : Bool) (s : Site π γ)
    (answers : List Answer) : Prop where
  number : h.gate < s.gates.length
  own : h.Own s.exchange.index
  /-- While the gate is alive all requests were refused. -/
  refused : aliveAt s.gates h.gate = true → ∀ a ∈ answers, a.Reopens
  /-- All requests but the last were refused. -/
  last : ∀ a ∈ answers.dropLast, a.Reopens
  /-- When the gate is dead the handle is off the index. -/
  off : aliveAt s.gates h.gate = false → attached = true →
    ∀ e ∈ s.exchange.index.toList, e.start ≠ h.start

/-- A release that failed has changed nothing: the site was `s` before it, `begun` when the worker
was asked, `w` when it had answered, and is `s'` in the end. What others did meanwhile stays. -/
structure Restored (h : Handle) (s begun w s' : Site π γ) : Prop where
  before : aliveAt s.gates h.gate = true
  after : aliveAt s'.gates h.gate = true
  entry : h.entry ∈ s'.exchange.index.toList ↔ h.entry ∈ s.exchange.index.toList
  others : ∀ e, h.Clear e → (e ∈ s'.exchange.index.toList ↔ e ∈ w.exchange.index.toList)
  gates : w.gates = begun.gates → s'.gates = s.gates
  index : w.exchange.index = begun.exchange.index → s'.exchange.index = s.exchange.index
  pages : begun.pages = s.pages ∧ s'.pages = w.pages

variable {h : Handle} {attached : Bool} {s s' w : Site π γ} {x : Exchange γ} {answer : Answer}
  {answers : List Answer}

theorem Own.others (hown : h.Own s.exchange.index) (hothers : h.Others s s') :
    h.Own s'.exchange.index where
  sound := hothers.sound
  own := by
    intro e he
    by_cases hclear : h.Clear e
    · exact .inr hclear
    · exact hown.own e ((hothers.range e hclear).mp he)

/-- What others do keeps what holds between two releases. -/
theorem Standing.others (hs : h.Standing attached s answers) (hsize : 0 < h.geometry.trueSize)
    (hothers : h.Others s s') : h.Standing attached s' answers where
  number := Nat.lt_of_lt_of_le hs.number hothers.gates
  own := hs.own.others hothers
  refused := fun halive => hs.refused (hothers.alive.symm.trans halive)
  last := hs.last
  off := by
    intro hdead hattached e he hstart
    have hentry := (hs.own.others hothers).eq_entry hsize he hstart
    have hmeets : ¬h.Clear e := by
      rw [hentry]
      unfold Clear Interval.Apart entry
      simp only
      omega
    have hold := (hothers.range e hmeets).mp he
    exact hs.off (hothers.alive.symm.trans hdead) hattached e hold hstart

/-! ### The index on the way out and back -/

theorem Own.unindex (hown : h.Own x.index) (hsize : 0 < h.geometry.trueSize) {indexed : Bool}
    {x' : Exchange γ} (hunindex : x.unindex h.start = (indexed, x')) :
    h.Own x'.index ∧ ∀ e ∈ x'.index.toList, e.start ≠ h.start := by
  rcases unindex_cases hown hsize with ⟨-, index, hremove, heq⟩ | ⟨hnone, heq⟩
  · rw [heq] at hunindex
    cases hunindex
    have hlist := IntervalMap.toList_remove hremove
    constructor
    · refine ⟨IntervalMap.sound_remove hown.sound hremove, fun e he => ?_⟩
      rw [hlist] at he
      exact hown.own e (List.mem_of_mem_filter he)
    · intro e he
      rw [hlist] at he
      simpa using List.of_mem_filter he
  · rw [heq] at hunindex
    cases hunindex
    exact ⟨hown, hnone⟩

/-- An index without the handle's entry has nothing over its range. -/
theorem Own.clear {index : IntervalMap Handle} (hown : h.Own index)
    (hoff : ∀ e ∈ index.toList, e.start ≠ h.start) : ∀ e ∈ index.toList, h.Clear e := by
  intro e he
  rcases hown.own e he with rfl | hclear
  · exact absurd rfl (hoff _ he)
  · exact hclear

/-- A handle that was taken off the index can be put back, whatever others did to the rest of the
index. -/
theorem Own.enroll {index index' rest : IntervalMap Handle} (hown : h.Own index)
    (hentry : h.entry ∈ index.toList) (hremove : index.remove h.start = .ok (h, index'))
    (hrest : h.Own rest) (hoff : ∀ e ∈ rest.toList, e.start ≠ h.start) :
    ∃ restored, rest.insert h.start h.geometry.trueSize h = .ok restored ∧ h.Own restored ∧
      (∀ e, e ∈ restored.toList ↔ e = h.entry ∨ e ∈ rest.toList) ∧
      (rest = index' → restored = index) := by
  have hadmits : Admits rest.toList h.start h.geometry.trueSize :=
    ⟨hown.sound.len_pos _ hentry, hown.sound.end_lt _ hentry, hrest.clear hoff⟩
  obtain ⟨restored, hinsert⟩ := (IntervalMap.insert_ok_iff hrest.sound).mpr hadmits
  have hmem := fun e => IntervalMap.mem_insert (e := e) hrest.sound hinsert
  refine ⟨restored, hinsert, ⟨IntervalMap.sound_insert hrest.sound hinsert, fun e he => ?_⟩,
    hmem, fun hsame => ?_⟩
  · rcases (hmem e).mp he with heq | hold
    · exact .inl heq
    · exact hrest.own e hold
  · have hback := IntervalMap.insert_remove hown.sound hentry hremove
    have hsame' : (Except.ok restored : Except PagerError _) = .ok index := by
      rw [← hinsert, hsame]
      exact hback
    cases hsame'
    rfl

/-- A gate that was alive and is retired and revived is as it was. -/
theorem modify_retire_revive {gates : List Gate} {n : Nat} (halive : aliveAt gates n = true) :
    (gates.modify n Gate.retire).modify n Gate.revive = gates := by
  apply List.ext_getElem?
  intro k
  rw [List.getElem?_modify, List.getElem?_modify]
  unfold aliveAt at halive
  cases hk : gates[k]? with
  | none => rfl
  | some g =>
    by_cases hne : n = k
    · have hg : g.alive = true := by
        rw [hne, hk] at halive
        exact halive
      simp [hne, Gate.retire, Gate.revive, ← hg]
    · simp [hne]

/-! ### One release settles -/

/-- What a release comes to. The site is `s` at first, `begun` when the worker was asked or there is
nothing to wait for, and `w` when the worker has answered. -/
structure Settles (h : Handle) (attached : Bool) (s begun w : Site π γ) (answer : Answer)
    (result : Except PagerError Unit) (s' : Site π γ) : Prop where
  /-- The worker is asked exactly if the object is alive and the pager is there and accepts
  requests. -/
  sent : begun.exchange.channel.pending = s.exchange.channel.pending ++
    if h.Asks attached s then [.free h.id h.start s.exchange.completions.length] else []
  /-- A release that fails was refused, and all is as before. -/
  failed : ∀ cause, result = .error cause →
    h.Asks attached s ∧ answer = .refused cause ∧ h.Restored s begun w s'
  /-- After a release that succeeds the gate is dead and the handle is off the index. -/
  done : result = .ok () → aliveAt s'.gates h.gate = false ∧
    (attached = true → ∀ e ∈ s'.exchange.index.toList, e.start ≠ h.start)

/-- A release without a request. -/
theorem Standing.unasked (hs : h.Standing attached s answers) (hasks : ¬h.Asks attached s)
    (hpending : s'.exchange.channel.pending = s.exchange.channel.pending)
    (hgates : s'.gates.length = s.gates.length) (hdead : aliveAt s'.gates h.gate = false)
    (hown : h.Own s'.exchange.index)
    (hoff : attached = true → ∀ e ∈ s'.exchange.index.toList, e.start ≠ h.start) :
    h.Standing attached s' (answers ++ []) ∧
      h.Settles attached s s' w answer (.ok ()) s' := by
  rw [List.append_nil]
  constructor
  · refine ⟨hgates ▸ hs.number, hown, fun halive => ?_, hs.last, fun _ => hoff⟩
    rw [hdead] at halive
    cases halive
  · refine ⟨?_, fun cause herror => ?_, fun _ => ⟨hdead, hoff⟩⟩
    · rw [hpending, if_neg hasks, List.append_nil]
    · cases herror

/-- The site while the caller waits for the worker. -/
def begun (h : Handle) (s : Site π γ) (x : Exchange γ) : Site π γ :=
  { s with
    gates := s.gates.modify h.gate Gate.retire
    exchange := x.posting (.free h.id h.start s.exchange.completions.length) }

theorem dead_begun (h : Handle) (s : Site π γ) (x : Exchange γ) :
    aliveAt (h.begun s x).gates h.gate = false :=
  aliveAt_modify_of_ends fun _ => rfl

/-- While the caller waits, the gate is dead and the handle off the index. All requests but this one
were refused. -/
theorem Standing.begun (hs : h.Standing attached s answers) (hsize : 0 < h.geometry.trueSize)
    (hasks : h.Asks attached s) {indexed : Bool}
    (hunindex : s.exchange.unindex h.start = (indexed, x))
    (answer : Answer) : h.Standing attached (h.begun s x) (answers ++ [answer]) where
  number := by
    show h.gate < (s.gates.modify h.gate Gate.retire).length
    rw [List.length_modify]
    exact hs.number
  own := (hs.own.unindex hsize hunindex).1
  refused := by
    intro halive
    rw [dead_begun] at halive
    cases halive
  last := by
    rw [List.dropLast_concat]
    exact hs.refused hasks.1
  off := fun _ _ => (hs.own.unindex hsize hunindex).2

theorem pending_begun (hasks : h.Asks attached s) {indexed : Bool}
    (hunindex : s.exchange.unindex h.start = (indexed, x)) :
    (h.begun s x).exchange.channel.pending = s.exchange.channel.pending ++
      if h.Asks attached s then [.free h.id h.start s.exchange.completions.length] else [] := by
  obtain ⟨index, rfl⟩ := unindex_eq hunindex
  rw [if_pos hasks]
  rfl

/-- The gate is revived and the index has the handle's entry if it had it before. -/
theorem Standing.revived (hs : h.Standing attached s answers) (hasks : h.Asks attached s)
    (hw : h.Standing attached w (answers ++ [.refused cause])) (hcause : cause ≠ .shuttingDown)
    (hgates : s'.gates = w.gates.modify h.gate Gate.revive) (hown : h.Own s'.exchange.index)
    (hentry : h.entry ∈ s'.exchange.index.toList ↔ h.entry ∈ s.exchange.index.toList)
    (hrest : ∀ e, h.Clear e → (e ∈ s'.exchange.index.toList ↔ e ∈ w.exchange.index.toList))
    (hindex : w.exchange.index = x.index → s'.exchange.index = s.exchange.index)
    (hpages : s'.pages = w.pages) :
    h.Standing attached s' (answers ++ [.refused cause]) ∧ h.Restored s (h.begun s x) w s' := by
  have hlive : aliveAt s'.gates h.gate = true := by
    rw [hgates, aliveAt_modify, List.getElem?_eq_getElem hw.number]
    rfl
  constructor
  · refine ⟨?_, hown, fun _ a ha => ?_, hw.last, fun hdead => ?_⟩
    · rw [hgates, List.length_modify]
      exact hw.number
    · rcases List.mem_append.mp ha with hold | hnew
      · exact hs.refused hasks.1 a hold
      · exact ⟨cause, List.mem_singleton.mp hnew, hcause⟩
    · rw [hlive] at hdead
      cases hdead
  · refine ⟨hasks.1, hlive, hentry, hrest, fun hsame => ?_, hindex, rfl, hpages⟩
    rw [hgates, hsame]
    exact modify_retire_revive hasks.1

/-- A refusal makes the handle usable again, on the index or off it, as it was. -/
theorem Standing.reopened (hs : h.Standing attached s answers) (hsize : 0 < h.geometry.trueSize)
    (hasks : h.Asks attached s) {indexed : Bool}
    (hunindex : s.exchange.unindex h.start = (indexed, x))
    (hothers : h.Others (h.begun s x) w) (hcause : cause ≠ .shuttingDown) :
    (w.endDestroy h indexed (.refused cause)).1 = .error cause ∧
      h.Standing attached (w.endDestroy h indexed (.refused cause)).2
        (answers ++ [.refused cause]) ∧
      h.Restored s (h.begun s x) w (w.endDestroy h indexed (.refused cause)).2 := by
  have hw := (hs.begun hsize hasks hunindex (.refused cause)).others hsize hothers
  have hoff := hw.off (hothers.alive.trans (dead_begun h s x)) hasks.2.1
  rcases unindex_cases hs.own hsize with ⟨hentry, index, hremove, heq⟩ | ⟨hnone, heq⟩
  · rw [heq] at hunindex
    cases hunindex
    obtain ⟨restored, hinsert, hown, hmem, hsame⟩ := hs.own.enroll hentry hremove hw.own hoff
    rw [Site.endDestroy_indexed hcause hinsert]
    refine ⟨rfl, hs.revived hasks hw hcause rfl hown ?_ (fun e he => ?_) hsame rfl⟩
    · exact iff_of_true ((hmem _).mpr (.inl rfl)) hentry
    · refine (hmem e).trans (or_iff_right ?_)
      rintro rfl
      unfold Clear Interval.Apart entry at he
      simp only at he
      omega
  · rw [heq] at hunindex
    cases hunindex
    rw [Site.endDestroy_unindexed hcause]
    refine ⟨rfl,
      hs.revived hasks hw hcause rfl hw.own ?_ (fun e _ => Iff.rfl) (fun hsame => hsame) rfl⟩
    exact iff_of_false (fun hin => hoff _ hin rfl) fun hin => hnone _ hin rfl

/-- A request that was answered. -/
theorem Standing.answered (hs : h.Standing attached s answers) (hsize : 0 < h.geometry.trueSize)
    (hasks : h.Asks attached s) {indexed : Bool}
    (hunindex : s.exchange.unindex h.start = (indexed, x))
    (hothers : h.Others (h.begun s x) w) (answer : Answer) :
    h.Standing attached (w.endDestroy h indexed answer).2 (answers ++ [answer]) ∧
      h.Settles attached s (h.begun s x) w answer (w.endDestroy h indexed answer).1
        (w.endDestroy h indexed answer).2 := by
  have hsent := pending_begun hasks hunindex
  by_cases hreopens : answer.Reopens
  · obtain ⟨cause, rfl, hcause⟩ := hreopens
    obtain ⟨hresult, hstands, hrestored⟩ := hs.reopened hsize hasks hunindex hothers hcause
    refine ⟨hstands, hsent, fun c hc => ?_, fun hok => ?_⟩
    · rw [hresult] at hc
      cases hc
      exact ⟨hasks, rfl, hrestored⟩
    · rw [hresult] at hok
      cases hok
  · have hw := (hs.begun hsize hasks hunindex answer).others hsize hothers
    have hdead : aliveAt w.gates h.gate = false := hothers.alive.trans (dead_begun h s x)
    rw [Site.endDestroy_of_not_reopens hreopens]
    refine ⟨hw, hsent, fun c hc => ?_, fun _ => ⟨hdead, hw.off hdead⟩⟩
    cases hc

/-- **What one release preserves, and what it comes to.** -/
theorem Standing.call (hs : h.Standing attached s answers) (hsize : 0 < h.geometry.trueSize)
    (meanwhile : Site π γ → Site π γ) (answer : Answer)
    (hothers : h.Others (s.beginDestroy h attached).2 (meanwhile (s.beginDestroy h attached).2)) :
    h.Standing attached (s.destroy h attached meanwhile answer).2
        (answers ++ (s.beginDestroy h attached).1.answers answer) ∧
      h.Settles attached s (s.beginDestroy h attached).2
        (meanwhile (s.beginDestroy h attached).2) answer
        (s.destroy h attached meanwhile answer).1 (s.destroy h attached meanwhile answer).2 := by
  have hbegins := s.beginDestroy_begins h attached
  unfold Site.destroy
  generalize s.beginDestroy h attached = b at hothers hbegins ⊢
  cases hbegins with
  | dead hdead =>
    have hasks : ¬h.Asks attached s := by
      intro hasks
      exact absurd (hasks.1.symm.trans hdead) (by decide)
    exact hs.unasked hasks rfl rfl hdead hs.own (hs.off hdead)
  | alone halive hattached =>
    have hgone : ¬attached = true := by
      rw [hattached]
      decide
    refine hs.unasked (fun hasks => hgone hasks.2.1) rfl ?_
      (aliveAt_modify_of_ends fun _ => rfl) hs.own
      fun h' => absurd h' hgone
    exact List.length_modify ..
  | unheard halive hattached hclosed hunindex =>
    obtain ⟨hown, hoff⟩ := hs.own.unindex hsize hunindex
    have hasks : ¬h.Asks attached s := by
      intro hasks
      exact absurd (hasks.2.2.symm.trans hclosed) (by decide)
    refine hs.unasked hasks ?_ ?_ (aliveAt_modify_of_ends fun _ => rfl) hown fun _ => hoff
    · obtain ⟨index, rfl⟩ := unindex_eq hunindex
      rfl
    · exact List.length_modify ..
  | asks hasks hunindex => exact hs.answered hsize hasks hunindex hothers answer

/-- What a whole history preserves. -/
theorem Attempts.standing (hrun : h.Attempts attached s answers) (hsize : 0 < h.geometry.trueSize) :
    h.Standing attached s answers := by
  induction hrun with
  | start halive hown =>
    refine ⟨lt_of_aliveAt halive, hown, fun _ a ha => ?_, fun a ha => ?_, fun hdead => ?_⟩
    · cases ha
    · cases ha
    · exact absurd (halive.symm.trans hdead) (by decide)
  | others hrun hothers ih => exact ih.others hsize hothers
  | departs hrun ih =>
    exact ⟨ih.number, ih.own, ih.refused, ih.last, fun _ h' => absurd h' (by decide)⟩
  | call hrun meanwhile answer hothers ih => exact (ih.call hsize meanwhile answer hothers).1

/-! ### Histories of releases -/

theorem isOk_settled_of_reopens {a : Answer} (ha : a.Reopens) : a.settled.isOk = false := by
  obtain ⟨cause, rfl, -⟩ := ha
  rfl

/-- An answer after which the handle stays dead is the last one. -/
theorem Standing.last_of_not_reopens (hs : h.Standing attached s answers)
    {before later : List Answer}
    {a : Answer} (heq : answers = before ++ a :: later) (ha : ¬a.Reopens) : later = [] := by
  by_contra hlater
  apply ha
  apply hs.last
  rw [heq, List.dropLast_append_of_ne_nil (List.cons_ne_nil _ _),
    List.dropLast_cons_of_ne_nil hlater]
  simp

theorem Standing.countP_le_one (hs : h.Standing attached s answers) :
    answers.countP (·.settled.isOk) ≤ 1 := by
  by_cases hnil : answers = []
  · simp [hnil]
  · have hrefused : answers.dropLast.countP (·.settled.isOk) = 0 := by
      rw [List.countP_eq_zero]
      intro a ha
      simp [isOk_settled_of_reopens (hs.last a ha)]
    calc answers.countP (·.settled.isOk)
        = answers.dropLast.countP (·.settled.isOk) +
            [answers.getLast hnil].countP (·.settled.isOk) := by
          rw [← List.countP_append, List.dropLast_append_getLast hnil]
      _ ≤ 0 + 1 := Nat.add_le_add (Nat.le_of_eq hrefused) List.countP_le_length
      _ = 1 := rfl

/-- **An attempt to release an object takes place in full or not at all, and one at most is
granted.** Take a handle that is alive at first, on the index or not, and any history of releases,
in which the worker answers whatever it likes, the pager may go and its channel may be closed,
while others leave the life of the gate and the range of the handle on the index alone. Then one
answer at most grants a request, and after it, as after a refusal because of a shutdown, no
request is made. The next release asks the worker exactly if the object is alive, the pager is
there and its channel is open. If it fails, the gate is alive as before, and the index and the
memory are as before but for what others did meanwhile. If it succeeds, the gate is dead, and the
handle is off the index if the pager is there. -/
theorem attempts_settle (hbuilt : h.geometry.Built) (hrun : h.Attempts attached s answers) :
    answers.countP (·.settled.isOk) ≤ 1 ∧
    (∀ before a later, answers = before ++ a :: later → ¬a.Reopens → later = []) ∧
    ∀ (meanwhile : Site π γ → Site π γ) (answer : Answer),
      h.Others (s.beginDestroy h attached).2 (meanwhile (s.beginDestroy h attached).2) →
      h.Settles attached s (s.beginDestroy h attached).2
        (meanwhile (s.beginDestroy h attached).2) answer
        (s.destroy h attached meanwhile answer).1 (s.destroy h attached meanwhile answer).2 := by
  have hsize := hbuilt.regular.size_pos
  have hs := hrun.standing hsize
  refine ⟨hs.countP_le_one, fun before a later => hs.last_of_not_reopens,
    fun meanwhile answer hothers => ?_⟩
  exact (hs.call hsize meanwhile answer hothers).2

/-- A handle of eight pages, and a site that has it on the index. -/
def sampleListed : Handle :=
  { id := 1, start := 0x10000, geometry := .ofSizes 16 0 8 16 (some 1), gate := 0 }

def sampleSite : Site Unit Unit where
  pages := ()
  client := ()
  gates := [{ owner := 1 }]
  exchange := { index := ⟨[sampleListed.entry]⟩ }

/-- The site after a release that was refused. -/
def sampleRetried : Site Unit Unit :=
  (sampleSite.destroy sampleListed true (fun s => s) (.refused (.outOfBounds 0 0))).2

/-- The next release asks again, and is granted. -/
theorem attempts_settle_sample :
    sampleListed.geometry.Built ∧
      sampleListed.Attempts true sampleRetried [.refused (.outOfBounds 0 0)] ∧
      aliveAt (sampleRetried.destroy sampleListed true (fun s => s) .released).2.gates 0 =
        false := by
  have hbuilt : sampleListed.geometry.Built := ⟨16, 0, 8, 16, some 1, _, false, rfl, rfl⟩
  have hown : sampleListed.Own sampleSite.exchange.index := by
    refine ⟨⟨List.pairwise_singleton .., fun e he => ?_, fun e he => ?_⟩, fun e he => .inl ?_⟩
    · rw [List.mem_singleton.mp he]
      decide
    · rw [List.mem_singleton.mp he]
      decide
    · exact List.mem_singleton.mp he
  have hrun : sampleListed.Attempts true sampleRetried [.refused (.outOfBounds 0 0)] :=
    .call (.start rfl hown) (fun s => s) _
      ⟨rfl, Nat.le_refl _, IntervalMap.sound_empty, fun _ _ => Iff.rfl⟩
  have hnext := (attempts_settle hbuilt hrun).2.2 (fun s => s) .released
    ⟨rfl, Nat.le_refl _, IntervalMap.sound_empty, fun _ _ => Iff.rfl⟩
  exact ⟨hbuilt, hrun, (hnext.done rfl).1⟩

end Handle
end DemandPager
