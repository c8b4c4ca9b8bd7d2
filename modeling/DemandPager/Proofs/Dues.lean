/-
# What the worker owes to others

Two things are due from the worker: that a request is answered which was accepted, and that
the gate of an object says so when its memory is let go. The first is owed while the request
is in the queue, the second while the object is on the books (`Worker.Owed`). A request that
was taken, or an object that was struck, is in the hands of the worker until the due is met.
`Minding` says of given dues that none was forgotten: each is met, owed, or in hand.

No due that is met comes undone by what others do (`Minding.meanwhile`), nor by what the worker
does, except that it takes back that memory is let go; then the object is still there
(`Minding.aborted`).

Key definitions: `Due`, `Site.Met`, `Owing`, `Worker.Owed`, `Charged`, `Carries`, `Minding`.
Key theorems: `Minding.meanwhile`, `Minding.aborted`, `Minding.popped`, `Minding.replied`,
`Minding.placed`, `Minding.struck`.
-/
import DemandPager.Proofs.Answers
import DemandPager.Proofs.Discretion
import DemandPager.Proofs.Interference

namespace DemandPager

variable {π γ α : Type}

/-- What the worker owes to others. -/
inductive Due
  /-- An answer to a request, after so many entries. -/
  | answer (ticket entries : Nat)
  /-- Accesses through a gate are to be told that the memory went. -/
  | bar (gate : Nat)

/-- What was due was done. -/
def Site.Met (s : Site π γ) : Due → Prop
  | .answer ticket entries => ∃ a, .answer ticket a ∈ s.journal.drop entries
  | .bar gate => ∃ g, s.gates[gate]? = some g ∧ g.unmapping = true

/-- The dues for given tickets and gates, now that there are so many entries. -/
def Owing (entries : Nat) (tickets gates : List Nat) : Due → Prop
  | .answer ticket n => ticket ∈ tickets ∧ n ≤ entries
  | .bar gate => gate ∈ gates

theorem Owing.mono {entries entries' : Nat} {tickets tickets' gates gates' : List Nat} {d : Due}
    (h : Owing entries tickets gates d) (hle : entries ≤ entries') (htickets : tickets ⊆ tickets')
    (hgates : gates ⊆ gates') : Owing entries' tickets' gates' d := by
  cases d with
  | answer => exact ⟨htickets h.1, Nat.le_trans h.2 hle⟩
  | bar => exact hgates h

namespace Worker

/-- The gates of the objects on the books. -/
def gateNumbers (w : Worker π γ) : List Nat := w.objects.toList.map (·.value.gate)

theorem gateNumbers_congr {w w' : Worker π γ} (h : w'.objects = w.objects) :
    w'.gateNumbers = w.gateNumbers := by
  unfold gateNumbers
  rw [h]

/-- The tickets of the requests in the queue. -/
def tickets (w : Worker π γ) : List Nat := ticketsOf w.exchange.channel.pending

/-- The queued requests are to be answered, and the objects are to be let go. -/
def Owed (w : Worker π γ) : Due → Prop := Owing w.journal.length w.tickets w.gateNumbers

/-- Without objects and messages nothing is owed. -/
theorem not_owed {w : Worker π γ} (hobjects : w.objects = .empty)
    (hpending : w.exchange.channel.pending = []) (d : Due) : ¬w.Owed d := by
  unfold Owed tickets gateNumbers
  rw [hobjects, hpending]
  intro howed
  cases d with
  | answer t n => cases howed.1
  | bar n => cases howed

end Worker

/-- The given dues, and what is owed now. -/
def Charged (D : Due → Prop) (w : Worker π γ) (d : Due) : Prop := D d ∨ w.Owed d

/-! ### What is met stays met -/

/-- What was entered stays, and no gate is unbarred. -/
structure Carries (s s' : Site π γ) : Prop where
  journal : s.journal <+: s'.journal
  gates : ∀ (n : Nat) (g : Gate), s.gates[n]? = some g →
    ∃ g', s'.gates[n]? = some g' ∧ (g.unmapping → g'.unmapping)

namespace Carries

variable {s s' : Site π γ}

theorem of_eq (hjournal : s.journal <+: s'.journal) (hgates : s'.gates = s.gates) :
    Carries s s' where
  journal := hjournal
  gates := fun _ g hg => ⟨g, by rw [hgates, hg], fun h => h⟩

theorem of_interferes (h : Interferes s s') : Carries s s' where
  journal := h.journal ▸ List.prefix_rfl
  gates := fun n g hg => by
    obtain ⟨g', hg', heq⟩ := h.gates n g hg
    exact ⟨g', hg', fun h => heq ▸ h⟩

/-- Only the end of an unmapping unbars a gate. -/
theorem of_turn (s : Site π γ) (number : Nat) {t : GateTurn} (ht : t ≠ .abortUnmap) :
    Carries s (s.modifyGate number t.apply) where
  journal := List.prefix_rfl
  gates := fun n g hg => by
    refine ⟨if number = n then t.apply g else g, ?_, ?_⟩
    · show (s.gates.modify number t.apply)[n]? = _
      rw [List.getElem?_modify, hg]
      rfl
    · intro h
      split
      · cases t with
        | beginUnmap => rfl
        | abortUnmap => exact absurd rfl ht
        | retire => exact h
      · exact h

theorem length_le (h : Carries s s') : s.gates.length ≤ s'.gates.length := by
  by_contra hlt
  obtain ⟨g', hg', -⟩ := h.gates s'.gates.length _ (List.getElem?_eq_getElem (by omega))
  exact absurd (List.getElem?_eq_some_iff.mp hg').1 (Nat.lt_irrefl _)

theorem met (h : Carries s s') {d : Due} (hd : s.Met d) : s'.Met d := by
  cases d with
  | answer ticket entries =>
    obtain ⟨a, ha⟩ := hd
    obtain ⟨es, hes⟩ := h.journal
    refine ⟨a, ?_⟩
    rw [← hes, List.drop_append]
    exact List.mem_append_left _ ha
  | bar gate =>
    obtain ⟨g, hg, hbarred⟩ := hd
    obtain ⟨g', hg', hkeeps⟩ := h.gates gate g hg
    exact ⟨g', hg', hkeeps hbarred⟩

end Carries

theorem Site.met_beginUnmap {s : Site π γ} {number : Nat} (h : number < s.gates.length) :
    (s.modifyGate number Gate.beginUnmap).Met (.bar number) := by
  refine ⟨(s.gates[number]).beginUnmap, ?_, rfl⟩
  show (s.gates.modify number Gate.beginUnmap)[number]? = _
  rw [List.getElem?_modify_eq, List.getElem?_eq_getElem h]
  rfl

/-- What is owed stays owed whatever others do. -/
theorem Worker.Owed.meanwhile {w : Worker π γ} {s : Site π γ} {d : Due} (h : w.Owed d)
    (hs : Interferes w.toSite s) : (⟨s, w.toDesk⟩ : Worker π γ).Owed d := by
  obtain ⟨new, hnew, -⟩ := hs.queue
  refine h.mono (Nat.le_of_eq (congrArg _ hs.journal.symm)) ?_ (List.Subset.refl _)
  show ticketsOf _ ⊆ ticketsOf s.exchange.channel.pending
  rw [hnew, ticketsOf_append]
  exact List.subset_append_left ..

/-! ### No due is forgotten -/

/-- Each of the dues is met or owed, or it is in the worker's hands, as the answer to one of
the tickets or the unmapping behind one of the gates. All gates that the worker knows of were
opened. -/
structure Minding (tickets gates : List Nat) (D : Due → Prop) (w : Worker π γ) : Prop where
  sound : w.objects.Sound
  housed : ∀ n ∈ gates ++ w.gateNumbers, n < w.gates.length
  mail : ∀ m ∈ w.exchange.channel.pending, m.Housed w.gates.length
  dues : ∀ d, D d →
    w.Met d ∨ Owing w.journal.length (tickets ++ w.tickets) (gates ++ w.gateNumbers) d

namespace Minding

variable {tickets tickets' gates gates' : List Nat} {D : Due → Prop} {w w' : Worker π γ}

/-- Nothing is forgotten if what is met stays met, and what was owed or in hand is met, still
owed or in hand. -/
theorem carry (h : Minding tickets gates D w) (hcarries : Carries w.toSite w'.toSite)
    (hsound : w'.objects.Sound)
    (hhoused : ∀ n ∈ gates' ++ w'.gateNumbers, n ∈ gates ++ w.gateNumbers ∨ n < w'.gates.length)
    (hmail : ∀ m ∈ w'.exchange.channel.pending,
      m ∈ w.exchange.channel.pending ∨ m.Housed w'.gates.length)
    (htickets : ∀ t ∈ tickets ++ w.tickets,
      t ∈ tickets' ++ w'.tickets ∨ ∀ n ≤ w.journal.length, w'.Met (.answer t n))
    (hgates : ∀ n ∈ gates ++ w.gateNumbers, n ∈ gates' ++ w'.gateNumbers ∨ w'.Met (.bar n)) :
    Minding tickets' gates' D w' where
  sound := hsound
  housed := fun n hn => (hhoused n hn).elim
    (fun hold => Nat.lt_of_lt_of_le (h.housed n hold) hcarries.length_le) fun h => h
  mail := fun m hm => (hmail m hm).elim
    (fun hold => (h.mail m hold).mono hcarries.length_le) fun h => h
  dues := fun d hd => by
    rcases h.dues d hd with hmet | howing
    · exact .inl (hcarries.met hmet)
    · cases d with
      | answer t n =>
        rcases htickets t howing.1 with hstill | hmet
        · exact .inr ⟨hstill, Nat.le_trans howing.2 hcarries.journal.length_le⟩
        · exact .inl (hmet n howing.2)
      | bar n => exact (hgates n howing).symm.imp_right fun h => h

/-- The books, the queue and what is in hand are the same. -/
theorem same (h : Minding tickets gates D w) (hcarries : Carries w.toSite w'.toSite)
    (hobjects : w'.objects = w.objects)
    (hpending : w'.exchange.channel.pending = w.exchange.channel.pending) :
    Minding tickets gates D w' := by
  have hnumbers : w'.gateNumbers = w.gateNumbers := Worker.gateNumbers_congr hobjects
  have htickets : w'.tickets = w.tickets := congrArg ticketsOf hpending
  refine h.carry hcarries (hobjects ▸ h.sound) (fun n hn => .inl (hnumbers ▸ hn))
    (fun m hm => .inl (hpending ▸ hm)) (fun t ht => .inl (htickets.symm ▸ ht))
    fun n hn => .inl (hnumbers.symm ▸ hn)

theorem anti {D' : Due → Prop} (h : Minding tickets gates D' w) (hD : ∀ d, D d → D' d) :
    Minding tickets gates D w :=
  { h with dues := fun d hd => h.dues d (hD d hd) }

/-- A gate that is barred is not in hand any more. -/
theorem barred {number : Nat} (h : Minding tickets (number :: gates) D w)
    (hbarred : w.Met (.bar number)) : Minding tickets gates D w :=
  h.carry (.of_eq List.prefix_rfl rfl) h.sound (fun _ hn => .inl (List.mem_cons_of_mem _ hn))
    (fun _ hm => .inl hm) (fun _ ht => .inl ht) fun n hn => by
      rcases List.mem_cons.mp hn with rfl | hrest
      · exact .inr hbarred
      · exact .inl hrest

/-- A gate is turned, but not to let accesses in again. -/
theorem turned (h : Minding tickets gates D w) (number : Nat) {t : GateTurn}
    (ht : t ≠ .abortUnmap) : Minding tickets gates D (w.onSite (·.modifyGate number t.apply)) :=
  h.same (.of_turn _ number ht) rfl rfl

/-- What is owed becomes one of the dues. -/
theorem charged (h : Minding tickets gates D w) : Minding tickets gates (Charged D w) w where
  sound := h.sound
  housed := h.housed
  mail := h.mail
  dues := fun d hd => hd.elim (h.dues d) fun howed => .inr <|
    howed.mono (Nat.le_refl _) (List.subset_append_right ..) (List.subset_append_right ..)

/-- **Others make nothing be forgotten**, even if all that they ask for becomes due. -/
theorem meanwhile (h : Minding tickets gates D w) {s : Site π γ} (hs : Interferes w.toSite s) :
    Minding tickets gates (Charged D ⟨s, w.toDesk⟩) ⟨s, w.toDesk⟩ := by
  obtain ⟨new, hnew, -, hhoused⟩ := hs.queue
  suffices hcarried : Minding tickets gates D ⟨s, w.toDesk⟩ from hcarried.charged
  refine h.carry (.of_interferes hs) h.sound (fun n hn => .inl hn) (fun m hm => ?_)
    (fun t ht => ?_) fun n hn => .inl hn
  · rcases List.mem_append.mp (hnew ▸ hm) with hold | hlate
    · exact .inl hold
    · exact .inr (hhoused m hlate)
  · have hqueued : w.tickets ⊆ ticketsOf s.exchange.channel.pending := by
      rw [hnew, ticketsOf_append]
      exact List.subset_append_left ..
    exact .inl ((List.mem_append.mp ht).elim (List.mem_append_left _)
      fun h => List.mem_append_right _ (hqueued h))

/-- **An unmapping is taken back** of an object that is still there. -/
theorem aborted (h : Minding tickets gates D w) {number : Nat}
    (hnumber : number ∈ gates ++ w.gateNumbers) :
    Minding tickets gates D (w.onSite (·.modifyGate number Gate.abortUnmap)) where
  sound := h.sound
  housed := fun n hn => by
    show n < (w.gates.modify number Gate.abortUnmap).length
    rw [List.length_modify]
    exact h.housed n hn
  mail := fun m hm => by
    show m.Housed (w.gates.modify number Gate.abortUnmap).length
    rw [List.length_modify]
    exact h.mail m hm
  dues := fun d hd => by
    rcases h.dues d hd with hmet | howing
    · cases d with
      | answer t n => exact .inl hmet
      | bar n =>
        obtain ⟨g, hg, hbarred⟩ := hmet
        by_cases heq : number = n
        · exact .inr (heq ▸ hnumber)
        · refine .inl ⟨g, ?_, hbarred⟩
          show (w.gates.modify number Gate.abortUnmap)[n]? = some g
          rw [List.getElem?_modify_ne _ _ heq, hg]
    · exact .inr howing

/-- A message is taken off the queue. -/
theorem popped (h : Minding tickets gates D w) {m : Message γ} {channel : Channel (Message γ)}
    (hnext : w.exchange.channel.next = some (m, channel)) :
    m.Housed w.gates.length ∧ Minding (m.ticket?.toList ++ tickets) gates D
      (w.onExchange fun x => { x with channel }) := by
  have hpending : w.exchange.channel.pending = m :: channel.pending := pending_of_next hnext
  refine ⟨h.mail m (hpending ▸ List.mem_cons_self), h.carry (.of_eq List.prefix_rfl rfl) h.sound
    (fun n hn => .inl hn) (fun x hx => .inl ?_) (fun t ht => .inl ?_) fun n hn => .inl hn⟩
  · rw [hpending]
    exact List.mem_cons_of_mem _ hx
  · have htickets : w.tickets = m.ticket?.toList ++ ticketsOf channel.pending := by
      show ticketsOf w.exchange.channel.pending = _
      rw [hpending]
      exact ticketsOf_append [m] _ |>.trans (by cases m <;> rfl)
    show t ∈ m.ticket?.toList ++ tickets ++ ticketsOf channel.pending
    rw [htickets] at ht
    simp only [List.mem_append] at ht ⊢
    tauto

/-- All messages are taken off the queue, which is closed. -/
theorem drained (h : Minding tickets gates D w) :
    Minding (w.tickets ++ tickets) gates D
      (w.onExchange fun x => { x with channel := x.channel.closeAndDrain.2 }) := by
  refine h.carry (.of_eq List.prefix_rfl rfl) h.sound (fun n hn => .inl hn)
    (fun m hm => by cases hm) (fun t ht => .inl ?_) fun n hn => .inl hn
  show t ∈ w.tickets ++ tickets ++ []
  rw [List.append_nil]
  exact List.mem_append.mpr (List.mem_append.mp ht).symm

/-- All objects go from the books into the hands of the worker. -/
theorem cleared (h : Minding tickets gates D w) :
    Minding tickets (w.gateNumbers ++ gates) D { w with objects := .empty } := by
  have hheld : ∀ {n : Nat}, n ∈ gates ++ w.gateNumbers ↔
      n ∈ w.gateNumbers ++ gates ++ Worker.gateNumbers { w with objects := .empty } := by
    intro n
    show _ ↔ n ∈ w.gateNumbers ++ gates ++ []
    rw [List.append_nil, List.mem_append, List.mem_append, or_comm]
  exact h.carry (.of_eq List.prefix_rfl rfl) IntervalMap.sound_empty
    (fun n hn => .inl (hheld.mpr hn))
    (fun m hm => .inl hm) (fun t ht => .inl ht) fun n hn => .inl (hheld.mp hn)

/-- If nothing is in hand, on the books or in the queue, all dues are met. -/
theorem met (h : Minding [] [] D w) (hobjects : w.objects = .empty)
    (hpending : w.exchange.channel.pending = []) {d : Due} (hd : D d) : w.Met d :=
  (h.dues d hd).resolve_right (Worker.not_owed hobjects hpending d)

/-- A request is answered. -/
theorem replied {t : Nat} (h : Minding (t :: tickets) gates D w) {a : Answer}
    (hjournal : w'.journal = w.journal ++ [.answer t a]) (hgates : w'.gates = w.gates)
    (hobjects : w'.objects = w.objects)
    (hpending : w'.exchange.channel.pending = w.exchange.channel.pending) :
    Minding tickets gates D w' := by
  have hnumbers : w'.gateNumbers = w.gateNumbers := Worker.gateNumbers_congr hobjects
  have htickets : w'.tickets = w.tickets := congrArg ticketsOf hpending
  refine h.carry (.of_eq (hjournal ▸ List.prefix_append ..) hgates) (hobjects ▸ h.sound)
    (fun n hn => .inl (hnumbers ▸ hn)) (fun m hm => .inl (hpending ▸ hm)) (fun u hu => ?_)
    fun n hn => .inl (hnumbers.symm ▸ hn)
  rcases List.mem_cons.mp hu with rfl | hrest
  · refine .inr fun n hn => ⟨a, ?_⟩
    rw [hjournal, List.drop_append_of_le_length hn]
    exact List.mem_append_right _ (List.mem_singleton_self _)
  · exact .inl (htickets.symm ▸ hrest)

/-- An object comes onto the books. -/
theorem placed (h : Minding tickets gates D w) {object : Object γ}
    (hfurnished : Worker.Furnished object w w') (hgate : object.gate < w.gates.length) :
    Minding tickets gates D w' := by
  obtain ⟨es, hdiscreet⟩ := hfurnished.discreet
  obtain ⟨hsound, hkept, hnew⟩ := hfurnished.books h.sound
  have hpending : w'.exchange.channel.pending = w.exchange.channel.pending :=
    congrArg _ hdiscreet.channel
  have htickets : w'.tickets = w.tickets := congrArg ticketsOf hpending
  refine h.carry (.of_eq (hdiscreet.journal ▸ List.prefix_append ..) hfurnished.turns) hsound
    (fun n hn => ?_) (fun m hm => .inl (hpending ▸ hm)) (fun t ht => .inl (htickets.symm ▸ ht))
    fun n hn => .inl ?_
  · rcases List.mem_append.mp hn with hheld | hbook
    · exact .inl (List.mem_append_left _ hheld)
    · obtain ⟨e, he, rfl⟩ := List.mem_map.mp hbook
      rcases hnew e he with hold | heq
      · exact .inl (List.mem_append_right _ (List.mem_map_of_mem hold))
      · refine .inr ?_
        rw [heq, hfurnished.turns]
        exact hgate
  · rcases List.mem_append.mp hn with hheld | hbook
    · exact List.mem_append_left _ hheld
    · obtain ⟨e, he, rfl⟩ := List.mem_map.mp hbook
      exact List.mem_append_right _ (List.mem_map_of_mem (hkept e he))

/-- An object whose gate is barred goes off the books. -/
theorem struck (h : Minding tickets gates D w) {e : Interval (Object γ)}
    (he : e ∈ w.objects.toList) (hbarred : w.Met (.bar e.value.gate))
    {object : Object γ} {objects : IntervalMap (Object γ)}
    (hremove : w.objects.remove e.start = .ok (object, objects)) :
    Minding tickets gates D { w with objects } := by
  have hmem := @IntervalMap.toList_remove _ _ _ _ _ hremove
  refine h.carry (.of_eq List.prefix_rfl rfl) (IntervalMap.sound_remove h.sound hremove)
    (fun n hn => .inl ?_) (fun m hm => .inl hm) (fun t ht => .inl ht) fun n hn => ?_
  · rcases List.mem_append.mp hn with hheld | hbook
    · exact List.mem_append_left _ hheld
    · obtain ⟨x, hx, rfl⟩ := List.mem_map.mp hbook
      refine List.mem_append_right _ (List.mem_map_of_mem ?_)
      rw [hmem] at hx
      exact (List.mem_filter.mp hx).1
  · rcases List.mem_append.mp hn with hheld | hbook
    · exact .inl (List.mem_append_left _ hheld)
    · obtain ⟨x, hx, rfl⟩ := List.mem_map.mp hbook
      by_cases hstart : x.start = e.start
      · rw [h.sound.eq_of_start hx he hstart]
        exact .inr hbarred
      · refine .inl (List.mem_append_right _ (List.mem_map_of_mem ?_))
        show x ∈ objects.toList
        rw [hmem]
        exact List.mem_filter.mpr ⟨hx, by simpa using hstart⟩

end Minding
end DemandPager
