/-
# The index of handles agrees with the registry of objects

Callers find objects on an index of handles, the worker finds them in its registry. The two are
edited at different times: a release takes the handle off the index before the worker is asked
and puts it back if the worker refuses; a creation puts it there once the worker has answered.

The index agrees with the registry if it is its image under `Interval.entry` (`Listing`), and the
handles that callers have are those of the objects as far as their gates are alive (`Census`).
Together with a queue that is empty this is the ledger of the worker. It is kept by a wakeup for a
request, whatever the worker answers, once the caller has edited the index by the answer
(`Worker.Ledger.allocate`, `Worker.Ledger.release`), and by a wakeup without a request
(`Worker.Ledger.unasked`).

Key definitions: `Listing`, `Census`, `Worker.Ready`, `Worker.Ledger`.
Key theorems: `Worker.Ledger.allocate`, `Worker.Ledger.release`, `Worker.Ledger.unasked`.
-/
import DemandPager.Proofs.Dismantling
import DemandPager.Proofs.Edits
import DemandPager.Proofs.Registry

namespace DemandPager

variable {π γ : Type}

/-! ### Entries of the index -/

/-- The handle of an object that lies at an interval. -/
def Interval.handle (e : Interval (Object γ)) : Handle where
  id := e.value.id
  start := e.start
  geometry := e.value.geometry
  gate := e.value.gate

/-- The entry on the index for an object. -/
def Interval.entry (e : Interval (Object γ)) : Interval Handle where
  start := e.start
  len := e.len
  value := e.handle

/-- A handle contains the addresses of the reservation of its object. -/
theorem Interval.contains_handle {e : Interval (Object γ)}
    (hlen : e.len = e.value.geometry.trueSize)
    {address : Nat} : e.handle.contains address = true ↔ e.Holds address := by
  unfold Handle.contains Holds
  rw [hlen, Bool.and_eq_true, decide_eq_true_eq, decide_eq_true_eq]
  show e.start ≤ address ∧ address - e.start < e.value.geometry.trueSize ↔ _
  omega

/-- The index has an entry for each object, and no other. -/
def Listing (index : IntervalMap Handle) (objects : IntervalMap (Object γ)) : Prop :=
  index.toList = objects.toList.map Interval.entry

namespace IntervalMap

/-- An interval that is taken away and taken in again leaves the map as it was. -/
theorem insert_remove {α : Type} {m m' : IntervalMap α} {e : Interval α} {value : α} (hm : m.Sound)
    (he : e ∈ m.toList) (h : m.remove e.start = .ok (value, m')) :
    m'.insert e.start e.len e.value = .ok m := by
  have hsound := sound_remove hm h
  have hlist := toList_remove h
  have hadmits : Admits m'.toList e.start e.len := by
    refine ⟨hm.len_pos e he, hm.end_lt e he, fun x hx => ?_⟩
    rw [hlist, List.mem_filter, decide_eq_true_eq] at hx
    refine hm.apart hx.1 he ?_
    rintro rfl
    exact hx.2 rfl
  obtain ⟨m'', hinsert⟩ := (insert_ok_iff hsound).mpr hadmits
  have hperm : m''.toList.Perm m.toList := by
    refine (perm_insert hsound hinsert).trans ?_
    rw [hlist]
    exact perm_of_mem hm.starts_ne he
  have hsame : m''.toList = m.toList := by
    refine hperm.eq_of_pairwise (fun a b ha hb hab hba => ?_)
      (sound_insert hsound hinsert).ordered hm.ordered
    have hpos := hm.len_pos b hb
    have hpos' := (sound_insert hsound hinsert).len_pos a ha
    omega
  rw [hinsert]
  exact congrArg Except.ok (congrArg IntervalMap.mk hsame)

end IntervalMap

namespace Listing

variable {index : IntervalMap Handle} {objects objects' : IntervalMap (Object γ)}

theorem empty : Listing (.empty : IntervalMap Handle) (.empty : IntervalMap (Object γ)) := rfl

theorem sound (h : Listing index objects) (hobjects : objects.Sound) : index.Sound := by
  have hmap : index = ⟨objects.toList.map Interval.entry⟩ := congrArg IntervalMap.mk h
  rw [hmap]
  exact IntervalMap.sound_map hobjects (fun _ => rfl) fun _ => rfl

/-- **What callers find is the handle of what the worker finds.** -/
theorem find? (h : Listing index objects) (hobjects : objects.Sound) (address : Nat) :
    index.find? address = (objects.find? address).map Interval.entry := by
  have hindex := h.sound hobjects
  cases hfind : objects.find? address with
  | none =>
    have hnone := (IntervalMap.find?_eq_none hobjects).mp hfind
    refine (IntervalMap.find?_eq_none hindex).mpr fun x hx => ?_
    rw [h] at hx
    obtain ⟨e, he, rfl⟩ := List.mem_map.mp hx
    exact hnone e he
  | some e =>
    obtain ⟨he, hholds⟩ := (IntervalMap.find?_eq_some hobjects).mp hfind
    refine (IntervalMap.find?_eq_some hindex).mpr ⟨?_, hholds⟩
    rw [h]
    exact List.mem_map_of_mem he

/-- An object that is taken in by the worker can be taken in by the index. -/
theorem insert (h : Listing index objects) (hobjects : objects.Sound) {start len : Nat}
    {o : Object γ} (hinsert : objects.insert start len o = .ok objects') :
    ∃ index', index.insert start len (Interval.handle { start, len, value := o }) = .ok index' ∧
      Listing index' objects' := by
  obtain ⟨hlen, hend, hapart, rfl⟩ := (IntervalMap.insert_eq_ok hobjects).mp hinsert
  have hapart' : ∀ x ∈ index.toList, x.Apart start len := by
    intro x hx
    rw [h] at hx
    obtain ⟨e, he, rfl⟩ := List.mem_map.mp hx
    exact hapart e he
  refine ⟨_, (IntervalMap.insert_eq_ok (h.sound hobjects)).mpr ⟨hlen, hend, hapart', rfl⟩, ?_⟩
  have hupTo : index.upTo start = (objects.upTo start).map Interval.entry := by
    unfold IntervalMap.upTo
    rw [h, List.takeWhile_map]
    rfl
  have hbeyond : index.beyond start = (objects.beyond start).map Interval.entry := by
    unfold IntervalMap.beyond
    rw [h, List.dropWhile_map]
    rfl
  unfold Listing
  rw [hupTo, hbeyond, List.map_append, List.map_cons]
  rfl

/-- An object of the worker can be taken off the index. -/
theorem remove (h : Listing index objects) (hobjects : objects.Sound) {e : Interval (Object γ)}
    (he : e ∈ objects.toList) : ∃ index', index.remove e.start = .ok (e.handle, index') := by
  have hentry : e.entry ∈ index.toList := by
    rw [h]
    exact List.mem_map_of_mem he
  exact IntervalMap.remove_of_mem (h.sound hobjects) hentry

/-- The index without a handle agrees with the registry without the object. -/
theorem removed (h : Listing index objects) {index' : IntervalMap Handle} {handle : Handle}
    {start : Nat} (hremove : index.remove start = .ok (handle, index'))
    (hobjects' : objects'.toList = objects.toList.filter (·.start ≠ start)) :
    Listing index' objects' := by
  unfold Listing
  rw [IntervalMap.toList_remove hremove, hobjects', h, List.filter_map]
  rfl

/-- A handle that was taken off the index can be put back, and then the index is as before. -/
theorem restore (h : Listing index objects) (hobjects : objects.Sound) {e : Interval (Object γ)}
    (he : e ∈ objects.toList) {index' : IntervalMap Handle} {handle : Handle}
    (hremove : index.remove e.start = .ok (handle, index')) :
    index'.insert e.start e.len e.handle = .ok index := by
  have hentry : e.entry ∈ index.toList := by
    rw [h]
    exact List.mem_map_of_mem he
  exact IntervalMap.insert_remove (h.sound hobjects) hentry hremove

end Listing

/-! ### Gates that are alive -/

/-- Whether there is a gate of a number and it is alive. -/
def aliveAt (gates : List Gate) (number : Nat) : Bool := gates[number]?.any (·.alive)

section Gates

variable {gates : List Gate} {number n : Nat} {f : Gate → Gate}

theorem Site.alive_gate (s : Site π γ) (number : Nat) :
    (s.gate number).alive = aliveAt s.gates number := by
  unfold gate aliveAt
  rw [List.getD_eq_getElem?_getD]
  cases s.gates[number]? <;> rfl

theorem lt_of_aliveAt (h : aliveAt gates number = true) : number < gates.length := by
  by_contra hle
  unfold aliveAt at h
  rw [List.getElem?_eq_none (Nat.le_of_not_lt hle)] at h
  cases h

theorem aliveAt_modify_of_ne (hne : n ≠ number) :
    aliveAt (gates.modify n f) number = aliveAt gates number := by
  unfold aliveAt
  rw [List.getElem?_modify_ne f gates hne]

theorem aliveAt_modify (number : Nat) :
    aliveAt (gates.modify number f) number = gates[number]?.any fun g => (f g).alive := by
  unfold aliveAt
  rw [List.getElem?_modify_eq]
  cases gates[number]? <;> rfl

/-- A change that keeps the life of gates. -/
theorem aliveAt_modify_of_keeps (hf : ∀ g, (f g).alive = g.alive) :
    aliveAt (gates.modify n f) number = aliveAt gates number := by
  by_cases hne : n = number
  · rw [hne, aliveAt_modify]
    simp only [hf]
    rfl
  · exact aliveAt_modify_of_ne hne

/-- A change that ends the life of a gate. -/
theorem aliveAt_modify_of_ends (hf : ∀ g, (f g).alive = false) :
    aliveAt (gates.modify number f) number = false := by
  rw [aliveAt_modify]
  simp only [hf]
  cases gates[number]? <;> rfl

/-- A gate that was alive is revived, and in between the life of no other gate was changed. -/
theorem aliveAt_revive {gates' : List Gate} (hlength : gates'.length = gates.length)
    (hothers : ∀ k, k ≠ n → aliveAt gates' k = aliveAt gates k) (hgate : aliveAt gates n = true) :
    aliveAt (gates'.modify n Gate.revive) number = aliveAt gates number := by
  by_cases hne : n = number
  · have hlt : number < gates'.length := by
      rw [hlength, ← hne]
      exact lt_of_aliveAt hgate
    rw [← hne, hgate, hne, aliveAt_modify, List.getElem?_eq_getElem hlt]
    rfl
  · rw [aliveAt_modify_of_ne hne]
    exact hothers number fun heq => hne heq.symm

theorem aliveAt_concat_of_lt (g : Gate) (h : number < gates.length) :
    aliveAt (gates ++ [g]) number = aliveAt gates number := by
  unfold aliveAt
  rw [List.getElem?_append_left h]

theorem aliveAt_concat (g : Gate) : aliveAt (gates ++ [g]) gates.length = g.alive := by
  unfold aliveAt
  rw [List.getElem?_concat_length]
  rfl

end Gates

/-! ### Handles and objects -/

/-- The gates of all objects are alive and no two are the same; and a handle whose gate is alive
is that of an object. -/
structure Census (gates : List Gate) (objects : List (Interval (Object γ)))
    (handles : List Handle) : Prop where
  alive : ∀ e ∈ objects, aliveAt gates e.value.gate = true
  apart : ∀ e ∈ objects, ∀ e' ∈ objects, e.value.gate = e'.value.gate → e = e'
  numbered : ∀ h ∈ handles, h.gate < gates.length
  known : ∀ h ∈ handles, aliveAt gates h.gate = true → ∃ e ∈ objects, h = e.handle

namespace Census

variable {gates gates' : List Gate} {objects objects' : List (Interval (Object γ))}
  {handles : List Handle}

theorem nil (gates : List Gate) : Census gates ([] : List (Interval (Object γ))) [] := by
  constructor
  all_goals intro x hx
  all_goals cases hx

/-- What counts is which gates are alive. -/
theorem of_alive (h : Census gates objects handles) (hlength : gates'.length = gates.length)
    (halive : ∀ n, aliveAt gates' n = aliveAt gates n) : Census gates' objects handles where
  alive := fun e he => (halive _).trans (h.alive e he)
  apart := h.apart
  numbered := fun x hx => hlength ▸ h.numbered x hx
  known := fun x hx hx' => h.known x hx ((halive _).symm.trans hx')

/-- A gate is built for an object that the worker does not take in. -/
theorem build (h : Census gates objects handles) (g : Gate) :
    Census (gates ++ [g]) objects handles where
  alive := fun e he => (aliveAt_concat_of_lt g (lt_of_aliveAt (h.alive e he))).trans (h.alive e he)
  apart := h.apart
  numbered := fun x hx => by
    have hlt := h.numbered x hx
    rw [List.length_append]
    omega
  known := fun x hx hx' => h.known x hx ((aliveAt_concat_of_lt g (h.numbered x hx)).symm.trans hx')

/-- The worker takes the object in. -/
theorem takeIn (h : Census gates objects handles) {g : Gate} (hg : g.alive = true)
    {e : Interval (Object γ)} (hgate : e.value.gate = gates.length)
    (hobjects : ∀ x, x ∈ objects' ↔ x = e ∨ x ∈ objects) :
    Census (gates ++ [g]) objects' (handles ++ [e.handle]) := by
  have hbuild := h.build g
  have hnew : ∀ x ∈ objects, x.value.gate ≠ gates.length := by
    intro x hx
    have hlt := lt_of_aliveAt (h.alive x hx)
    omega
  constructor
  case alive =>
    intro x hx
    by_cases hxe : x = e
    · rw [hxe, hgate, aliveAt_concat]
      exact hg
    · exact hbuild.alive x (((hobjects x).mp hx).resolve_left hxe)
  case apart =>
    intro x hx y hy hxy
    by_cases hxe : x = e
    · by_cases hye : y = e
      · rw [hxe, hye]
      · have hne := hnew y (((hobjects y).mp hy).resolve_left hye)
        rw [← hxy, hxe] at hne
        exact absurd hgate hne
    · have hxold := ((hobjects x).mp hx).resolve_left hxe
      by_cases hye : y = e
      · have hne := hnew x hxold
        rw [hxy, hye] at hne
        exact absurd hgate hne
      · exact h.apart x hxold y (((hobjects y).mp hy).resolve_left hye) hxy
  case numbered =>
    intro x hx
    rcases List.mem_append.mp hx with hold | hnew
    · exact hbuild.numbered x hold
    · have hlength : (gates ++ [g]).length = gates.length + 1 := List.length_append
      rw [List.mem_singleton.mp hnew, hlength]
      show e.value.gate < gates.length + 1
      omega
  case known =>
    intro x hx halive
    rcases List.mem_append.mp hx with hold | hnew
    · obtain ⟨y, hy, hxy⟩ := hbuild.known x hold halive
      exact ⟨y, (hobjects y).mpr (.inr hy), hxy⟩
    · exact ⟨e, (hobjects e).mpr (.inl rfl), List.mem_singleton.mp hnew⟩

/-- The worker lets an object go. -/
theorem release (h : Census gates objects handles) {e : Interval (Object γ)} (he : e ∈ objects)
    (hobjects : ∀ x, x ∈ objects' ↔ x ∈ objects ∧ x ≠ e) (hlength : gates'.length = gates.length)
    (halive : ∀ n, n ≠ e.value.gate → aliveAt gates' n = aliveAt gates n)
    (hdead : aliveAt gates' e.value.gate = false) : Census gates' objects' handles := by
  constructor
  case alive =>
    intro x hx
    obtain ⟨hold, hne⟩ := (hobjects x).mp hx
    rw [halive _ fun heq => hne (h.apart x hold e he heq)]
    exact h.alive x hold
  case apart =>
    intro x hx y hy
    exact h.apart x ((hobjects x).mp hx).1 y ((hobjects y).mp hy).1
  case numbered =>
    intro x hx
    rw [hlength]
    exact h.numbered x hx
  case known =>
    intro x hx hxalive
    have hne : x.gate ≠ e.value.gate := by
      intro heq
      rw [heq, hdead] at hxalive
      cases hxalive
    obtain ⟨y, hy, hxy⟩ := h.known x hx ((halive _ hne).symm.trans hxalive)
    refine ⟨y, (hobjects y).mpr ⟨hy, ?_⟩, hxy⟩
    intro hye
    rw [hxy, hye] at hne
    exact hne rfl

end Census

/-! ### The ledger -/

namespace Worker

/-- The worker is in order and serves, and its queue is open and empty. -/
structure Ready (w : Worker π γ) : Prop extends InOrder w where
  phase : w.phase = .running
  queue : w.exchange.channel.pending = []
  isOpen : w.exchange.channel.closed = false
  goesOn : w.exchange.stopping = false

/-- The worker is ready, the index agrees with the registry, and the handles that callers have
are those of the objects as far as their gates are alive. -/
structure Ledger (w : Worker π γ) (handles : List Handle) : Prop extends Ready w where
  listing : Listing w.exchange.index w.objects
  census : Census w.gates w.objects.toList handles

variable {w w' : Worker π γ} {handles : List Handle} {a : Answer} {ticket : Nat}

/-- A worker stays ready while the queue and the slots for answers are left alone. -/
theorem Ready.withSite (h : w.Ready) {s : Site π γ}
    (hchannel : s.exchange.channel = w.exchange.channel)
    (hcompletions : s.exchange.completions = w.exchange.completions)
    (hstopping : s.exchange.stopping = w.exchange.stopping) :
    ({ w with toSite := s } : Worker π γ).Ready := by
  have hposted : s.Posted := by
    unfold Site.Posted
    rw [hchannel, hcompletions]
    exact h.posted
  have hpending : s.exchange.channel.pending = [] := by
    rw [hchannel]
    exact h.queue
  have hopen : s.exchange.channel.closed = false := by
    rw [hchannel]
    exact h.isOpen
  exact ⟨⟨h.filed, h.owes, h.marks, hposted⟩, h.phase, hpending, hopen, hstopping.trans h.goesOn⟩

/-- A request that is posted to a worker that is ready is alone in the queue, and its slot is
free. -/
theorem Ready.posting (h : w.Ready) {s : Site π γ} {m : Message γ}
    (hpending : s.exchange.channel.pending = w.exchange.channel.pending ++ [m])
    (hcompletions : s.exchange.completions = w.exchange.completions ++ [({} : Completion Answer)])
    (hm : m.Posted (w.exchange.completions.length + 1)) :
    ({ w with toSite := s } : Worker π γ).InOrder ∧ s.exchange.channel.pending = [m] ∧
      s.exchange.completions[w.exchange.completions.length]? = some {} := by
  rw [h.queue, List.nil_append] at hpending
  have hposted : s.Posted := by
    intro m' hm'
    rw [hpending] at hm'
    rw [List.mem_singleton.mp hm', hcompletions, List.length_append]
    exact hm
  refine ⟨⟨h.filed, h.owes, h.marks, hposted⟩, hpending, ?_⟩
  rw [hcompletions]
  exact List.getElem?_concat_length ..

/-- Callers and the host change the memory. -/
theorem Ledger.withPages (h : w.Ledger handles) (pages : π) (client : γ) :
    ({ w with pages, client } : Worker π γ).Ledger handles :=
  ⟨h.toReady.withSite rfl rfl rfl, h.listing, h.census⟩

theorem Ledger.unasked (h : w.Ledger handles) (hunasked : Unasked w w') (hw' : w'.InOrder) :
    w'.Ledger handles := by
  obtain ⟨hphase, hobjects, hgates, hexchange⟩ := hunasked
  constructor
  case toReady =>
    refine ⟨hw', hphase.trans h.phase, ?_, ?_, ?_⟩
    all_goals rw [hexchange]
    · exact h.queue
    · exact h.isOpen
    · exact h.goesOn
  case listing =>
    rw [hexchange, hobjects]
    exact h.listing
  case census =>
    rw [hgates, hobjects]
    exact h.census

/-- A worker that has answered the only request is ready again. -/
theorem Attended.ready (h : Attended ticket a w w') (hopen : w.exchange.channel.closed = false)
    (hgoesOn : w.exchange.stopping = false) : w'.Ready := by
  refine ⟨h.inOrder, h.phase, ?_, ?_, ?_⟩
  all_goals rw [h.exchange]
  · exact hopen
  · exact hgoesOn

theorem Attended.index (h : Attended ticket a w w') : w'.exchange.index = w.exchange.index := by
  rw [h.exchange]

end Worker

/-! ### Requests -/

/-- The exchange after a request with a slot for its answer was posted. -/
def Exchange.posting (x : Exchange γ) (m : Message γ) : Exchange γ :=
  { x with
    completions := x.completions ++ [{}]
    channel := { x.channel with
      pending := x.channel.pending ++ [m]
      bell := x.channel.bell.notify } }

/-- The site after a new object was asked for. -/
def Site.asked (s : Site π γ) (d : Draft γ) : Site π γ :=
  { s with
    gates := s.gates ++ [{ owner := d.id }]
    exchange := s.exchange.posting
      (.allocate ⟨d.id, d.geometry, d.callbacks, s.gates.length⟩ s.exchange.completions.length) }

theorem Site.submit_allocate {s : Site π γ} (hopen : s.exchange.channel.closed = false)
    (d : Draft γ) : s.submit (.allocate d) = (.ok (), s.asked d) := by
  have hsend := Exchange.send_open (x := s.exchange.openTicket.2) hopen
  unfold Exchange.openTicket at hsend
  simp only [submit, Exchange.openTicket, build, hsend]
  rfl

theorem Exchange.requestFree_open {x : Exchange γ} (hopen : x.channel.closed = false)
    (id start : Nat) : x.requestFree id start =
      (.ok x.completions.length, x.posting (.free id start x.completions.length)) := by
  have hsend := send_open (x := x.openTicket.2) hopen
  unfold openTicket at hsend
  simp only [requestFree, openTicket, hsend]
  rfl

/-- The site after a handle was retired and taken off the index, and its release was asked for. -/
def Site.leaving (s : Site π γ) (h : Handle) (index : IntervalMap Handle) : Site π γ :=
  { s with
    gates := s.gates.modify h.gate Gate.retire
    exchange := { s.exchange with index }.posting
      (.free h.id h.start s.exchange.completions.length) }

/-- A release of a handle that is alive and on the index waits for the worker. -/
theorem Site.beginDestroy_alive {s : Site π γ} {h handle : Handle} {index : IntervalMap Handle}
    (halive : (s.gate h.gate).alive = true) (hopen : s.exchange.channel.closed = false)
    (hremove : s.exchange.index.remove h.start = .ok (handle, index)) :
    s.beginDestroy h true =
      (.waiting s.exchange.completions.length true, s.leaving h index) := by
  have hunindex : s.exchange.unindex h.start = (true, { s.exchange with index }) := by
    unfold Exchange.unindex
    rw [hremove]
  have hrequest := Exchange.requestFree_open (x := { s.exchange with index }) hopen h.id h.start
  unfold beginDestroy
  rw [halive, if_neg (by decide), if_neg (by decide)]
  simp only [modifyGate, hunindex, hrequest]
  rfl

/-! ### Requests keep the ledger -/

namespace Worker

variable {s : Site π γ} {desk : Desk γ} {handles : List Handle}

/-- **A new object.** If the worker takes it in, the index can take its handle in, and then the
ledger is right with the new handle. If it refuses, the ledger is right as it is. -/
theorem Ledger.allocate [Paging π]
    (h : ({ toSite := s, toDesk := desk } : Worker π γ).Ledger handles)
    {d : Draft γ} (hd : d.geometry.Built) :
    Ends (serveWakeup [controlToken]) { toSite := s.asked d, toDesk := desk }
      (fun outcome w => outcome = none ∧
        ((∃ (start : Nat) (index : IntervalMap Handle) (handle : Handle),
          w.exchange.answerTo s.exchange.completions.length = some (.placed start) ∧
          handle = ⟨d.id, start, d.geometry, s.gates.length⟩ ∧
          w.exchange.enroll handle = .ok { w.exchange with index } ∧
          index.find? start = some ⟨start, d.geometry.trueSize, handle⟩ ∧
          ({ w with exchange := { w.exchange with index } } : Worker π γ).Ledger
            (handles ++ [handle])) ∨
        ∃ cause, w.exchange.answerTo s.exchange.completions.length = some (.refused cause) ∧
          w.Ledger handles))
      fun _ w => w.exchange.answerTo s.exchange.completions.length = none := by
  set w₀ : Worker π γ := { toSite := s.asked d, toDesk := desk } with hw₀
  set o : Object γ := ⟨d.id, d.geometry, d.callbacks, s.gates.length⟩ with ho
  obtain ⟨hin, hqueue, hfresh⟩ :=
    h.toReady.posting (s := s.asked d) rfl rfl ⟨hd, Nat.lt_succ_self _⟩
  refine (serveWakeup_allocate (w := w₀) hin h.phase hqueue hfresh).mono ?_ fun f w hw => hw.2
  rintro outcome w ⟨houtcome, a, hattended, hgates, hhoused⟩
  refine ⟨houtcome, ?_⟩
  have hready : w.Ready := hattended.ready h.isOpen h.goesOn
  have hlisting : Listing w.exchange.index desk.objects := by
    rw [hattended.index]
    exact h.listing
  cases hhoused with
  | @placed start hinsert =>
    refine .inl ?_
    obtain ⟨index, hindex, hlisting'⟩ := hlisting.insert h.filed.objects hinsert
    set e : Interval (Object γ) := ⟨start, d.geometry.trueSize, o⟩ with he
    have hmem : ∀ x, x ∈ w.objects.toList ↔ x = e ∨ x ∈ desk.objects.toList :=
      fun x => IntervalMap.mem_insert h.filed.objects hinsert
    have hheld : w.objects.find? start = some e := by
      have hin : e ∈ w.objects.toList := (hmem e).mpr (.inl rfl)
      exact (IntervalMap.find?_eq_some hready.filed.objects).mpr
        ⟨hin, hready.filed.objects.holds_start hin⟩
    refine ⟨start, index, e.handle, hattended.answer, rfl, ?_, ?_, ?_⟩
    · unfold Exchange.enroll
      show (w.exchange.index.insert start d.geometry.trueSize e.handle >>= _) = _
      rw [hindex]
      rfl
    · rw [hlisting'.find? hready.filed.objects, hheld]
      rfl
    · refine ⟨hready.withSite rfl rfl rfl, hlisting', ?_⟩
      show Census w.gates w.objects.toList (handles ++ [e.handle])
      rw [hgates]
      exact h.census.takeIn rfl rfl hmem
  | @refused cause hobjects =>
    refine .inr ⟨cause, hattended.answer, hready, ?_, ?_⟩
    · rw [hobjects]
      exact hlisting
    · rw [hgates, hobjects]
      exact h.census.build _

/-- **A release.** If the worker lets the object go, the ledger is right without it. If it
refuses, the index can take the handle back, and then the ledger is right as it was. -/
theorem Ledger.release [Paging π] (hcandid : Paging.Candid π)
    (h : ({ toSite := s, toDesk := desk } : Worker π γ).Ledger handles) {e : Interval (Object γ)}
    (he : e ∈ desk.objects.toList) {index : IntervalMap Handle}
    (hremove : s.exchange.index.remove e.start = .ok (e.handle, index)) :
    Ends (serveWakeup [controlToken]) { toSite := s.leaving e.handle index, toDesk := desk }
      (fun outcome w => outcome = none ∧
        ((w.exchange.answerTo s.exchange.completions.length = some .released ∧
          aliveAt w.gates e.value.gate = false ∧ w.Ledger handles) ∨
        ∃ cause, w.exchange.answerTo s.exchange.completions.length = some (.refused cause) ∧
          cause ≠ .shuttingDown ∧
          w.exchange.enroll e.handle = .ok { w.exchange with index := s.exchange.index } ∧
          ({ w with
            gates := w.gates.modify e.value.gate Gate.revive
            exchange := { w.exchange with index := s.exchange.index } } : Worker π γ).Ledger
              handles))
      fun _ w => w.exchange.answerTo s.exchange.completions.length = none := by
  set w₀ : Worker π γ := { toSite := s.leaving e.handle index, toDesk := desk } with hw₀
  have hlisting : Listing s.exchange.index desk.objects := h.listing
  have hcensus : Census s.gates desk.objects.toList handles := h.census
  have hsound : desk.objects.Sound := h.filed.objects
  have halive : aliveAt s.gates e.value.gate = true := hcensus.alive e he
  have hgates : w₀.gates = s.gates.modify e.value.gate Gate.retire := rfl
  obtain ⟨hin, hqueue, hfresh⟩ :=
    h.toReady.posting (s := s.leaving e.handle index) rfl rfl (Nat.lt_succ_self _)
  refine (serveWakeup_free (w := w₀) hcandid hin h.phase hqueue hfresh).mono ?_ fun f w hw => hw.2
  rintro outcome w ⟨houtcome, a, hattended, hvacated⟩
  refine ⟨houtcome, ?_⟩
  have hready : w.Ready := hattended.ready h.isOpen h.goesOn
  have hindex : w.exchange.index = index := hattended.index
  cases hvacated with
  | released hreleased =>
    obtain ⟨e', he', hstart, -, hobjects, f, hf, hturned⟩ := hreleased
    obtain rfl : e' = e := hsound.eq_of_start he' he hstart
    rw [hgates] at hturned
    have hdead : aliveAt w.gates e'.value.gate = false := by
      rw [hturned]
      exact aliveAt_modify_of_ends hf
    refine .inl ⟨hattended.answer, hdead, hready, ?_, ?_⟩
    · rw [hindex]
      exact hlisting.removed hremove hobjects
    · have hmem : ∀ x, x ∈ w.objects.toList ↔ x ∈ desk.objects.toList ∧ x ≠ e' := by
        intro x
        rw [hobjects, List.mem_filter, decide_eq_true_eq]
        refine and_congr_right fun hx => not_congr ⟨hsound.eq_of_start hx he, ?_⟩
        rintro rfl
        rfl
      refine hcensus.release he hmem ?_ (fun n hne => ?_) hdead
      · rw [hturned, List.length_modify, List.length_modify]
      · rw [hturned, aliveAt_modify_of_ne hne.symm, aliveAt_modify_of_ne hne.symm]
  | @refused cause hcause hrefused =>
    obtain ⟨hobjects, n, f, hf, hturned⟩ := hrefused
    refine .inr ⟨cause, hattended.answer, hcause, ?_, ?_⟩
    · have hrestore := hlisting.restore hsound he hremove
      rw [h.filed.len e he] at hrestore
      unfold Exchange.enroll
      rw [hindex]
      show (index.insert e.start e.value.geometry.trueSize e.handle >>= _) = _
      rw [hrestore]
      rfl
    · refine ⟨hready.withSite rfl rfl rfl, ?_, ?_⟩
      · show Listing s.exchange.index w.objects
        rw [hobjects]
        exact hlisting
      · show Census (w.gates.modify e.value.gate Gate.revive) w.objects.toList handles
        rw [hobjects]
        refine hcensus.of_alive ?_ fun m => aliveAt_revive ?_ (fun k hne => ?_) halive
        · rw [hturned, hgates]
          simp only [List.length_modify]
        · rw [hturned, hgates]
          simp only [List.length_modify]
        · rw [hturned, hgates, aliveAt_modify_of_keeps hf, aliveAt_modify_of_ne hne.symm]

end Worker

end DemandPager
