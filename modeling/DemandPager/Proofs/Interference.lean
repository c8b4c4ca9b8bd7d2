/-
# What others do meanwhile

Other threads change the site while the worker is busy. They send requests and close the
queue, they retire and revive gates, and they touch the memory. But the journal is the
worker's, nobody opens the queue again or takes messages from it, and only the worker says
that memory is being unmapped (`Interferes`). The steps of calls and all that callers ask for
are of this kind (`Call.Step.interferes`, `Site.interferes_submit`).

Key definitions: `Message.Housed`, `Interferes`.
Key theorems: `Site.interferes_submit`, `Call.Step.interferes`.
-/
import DemandPager.Proofs.Mail
import DemandPager.Proofs.Requests

namespace DemandPager

variable {π γ : Type}

/-- The gate of an object that is asked for was opened, among so many gates. -/
def Message.Housed (gates : Nat) : Message γ → Prop
  | .allocate object _ => object.gate < gates
  | _ => True

theorem Message.Housed.mono {m : Message γ} {gates gates' : Nat} (h : m.Housed gates)
    (hle : gates ≤ gates') : m.Housed gates' := by
  cases m with
  | allocate object ticket => exact Nat.lt_of_lt_of_le h hle
  | free => trivial
  | shutdown => trivial

/-- What other threads may do to the site. -/
structure Interferes (s s' : Site π γ) : Prop where
  journal : s'.journal = s.journal
  gates : ∀ (n : Nat) (g : Gate), s.gates[n]? = some g →
    ∃ g', s'.gates[n]? = some g' ∧ g'.unmapping = g.unmapping
  queue : ∃ new, s'.exchange.channel.pending = s.exchange.channel.pending ++ new ∧
    (s.exchange.channel.closed → new = []) ∧ ∀ m ∈ new, m.Housed s'.gates.length
  closed : s.exchange.channel.closed → s'.exchange.channel.closed

namespace Interferes

variable {s t s' : Site π γ}

theorem length_le (h : Interferes s s') : s.gates.length ≤ s'.gates.length := by
  by_contra hlt
  obtain ⟨g', hg', -⟩ := h.gates s'.gates.length _ (List.getElem?_eq_getElem (by omega))
  exact absurd (List.getElem?_eq_some_iff.mp hg').1 (Nat.lt_irrefl _)

theorem refl (s : Site π γ) : Interferes s s where
  journal := rfl
  gates := fun _ g hg => ⟨g, hg, rfl⟩
  queue := ⟨[], (List.append_nil _).symm, fun _ => rfl, fun _ h => by cases h⟩
  closed := id

theorem trans (h : Interferes s t) (h' : Interferes t s') : Interferes s s' where
  journal := h'.journal.trans h.journal
  gates := fun n g hg => by
    obtain ⟨g₁, hg₁, heq⟩ := h.gates n g hg
    obtain ⟨g₂, hg₂, heq'⟩ := h'.gates n g₁ hg₁
    exact ⟨g₂, hg₂, heq'.trans heq⟩
  queue := by
    obtain ⟨new, hnew, hclosed, hhoused⟩ := h.queue
    obtain ⟨new', hnew', hclosed', hhoused'⟩ := h'.queue
    refine ⟨new ++ new', by rw [hnew', hnew, List.append_assoc], fun hs => ?_, ?_⟩
    · rw [hclosed hs, hclosed' (h.closed hs)]
      rfl
    · exact List.forall_mem_append.mpr ⟨fun m hm => (hhoused m hm).mono h'.length_le, hhoused'⟩
  closed := fun hs => h'.closed (h.closed hs)

/-- A closed queue stays as it is. -/
theorem pending_eq (h : Interferes s s') (hclosed : s.exchange.channel.closed) :
    s'.exchange.channel.pending = s.exchange.channel.pending := by
  obtain ⟨new, hnew, hnone, -⟩ := h.queue
  rw [hnew, hnone hclosed, List.append_nil]

/-- Nothing is sent, and the gates are turned by callers at most. -/
theorem of_unmapping (hjournal : s'.journal = s.journal)
    (hgates : ∀ n : Nat, s'.gates[n]?.map Gate.unmapping = s.gates[n]?.map Gate.unmapping)
    (hpending : s'.exchange.channel.pending = s.exchange.channel.pending)
    (hclosed : s.exchange.channel.closed → s'.exchange.channel.closed) : Interferes s s' where
  journal := hjournal
  gates := fun n g hg => by
    have hmap := hgates n
    rw [hg] at hmap
    obtain ⟨g', hg', heq⟩ := Option.map_eq_some_iff.mp hmap
    exact ⟨g', hg', heq⟩
  queue := ⟨[], by rw [hpending, List.append_nil], fun _ => rfl, fun _ h => by cases h⟩
  closed := hclosed

/-- Something changes that is not looked at here. -/
theorem of_eq (hjournal : s'.journal = s.journal) (hgates : s'.gates = s.gates)
    (hpending : s'.exchange.channel.pending = s.exchange.channel.pending)
    (hclosed : s.exchange.channel.closed → s'.exchange.channel.closed) : Interferes s s' :=
  of_unmapping hjournal (fun _ => by rw [hgates]) hpending hclosed

/-- A message is sent. -/
theorem of_message {m : Message γ} {new : List Gate} (hjournal : s'.journal = s.journal)
    (hgates : s'.gates = s.gates ++ new)
    (hopen : s.exchange.channel.closed = false)
    (hpending : s'.exchange.channel.pending = s.exchange.channel.pending ++ [m])
    (hm : m.Housed s'.gates.length) : Interferes s s' where
  journal := hjournal
  gates := fun n g hg => ⟨g, by
    rw [hgates, List.getElem?_append_left (List.getElem?_eq_some_iff.mp hg).1, hg], rfl⟩
  queue := by
    refine ⟨[m], hpending, fun h => ?_, fun x hx => ?_⟩
    · rw [hopen] at h
      cases h
    · rwa [List.mem_singleton.mp hx]
  closed := fun h => by rw [hopen] at h; cases h

end Interferes

/-- The gates that are opened change nothing about the others. -/
theorem Interferes.of_opened {s s' : Site π γ} {new : List Gate} (hjournal : s'.journal = s.journal)
    (hgates : s'.gates = s.gates ++ new)
    (hchannel : s'.exchange.channel = s.exchange.channel) : Interferes s s' where
  journal := hjournal
  gates := fun n g hg => ⟨g, by
    rw [hgates, List.getElem?_append_left (List.getElem?_eq_some_iff.mp hg).1, hg], rfl⟩
  queue := ⟨[], by rw [hchannel, List.append_nil], fun _ => rfl, fun _ h => by cases h⟩
  closed := fun h => by rw [hchannel]; exact h

/-- **What callers ask for is no more than interference.** -/
theorem Site.interferes_submit (s : Site π γ) (r : Request γ) : Interferes s (s.submit r).2 := by
  cases hclosed : s.exchange.channel.closed with
  | true =>
    have hsend := Exchange.send_closed (x := s.exchange.openTicket.2) hclosed
    unfold Exchange.openTicket at hsend
    cases r with
    | allocate d =>
      simp only [submit, Exchange.openTicket, build, hsend]
      exact .of_opened rfl rfl rfl
    | free id start =>
      simp only [submit, Exchange.requestFree, Exchange.openTicket, hsend]
      exact .of_eq rfl rfl rfl fun h => h
    | shutdown =>
      simp only [submit, Exchange.send_closed hclosed]
      exact .refl _
  | false =>
    have hsend := Exchange.send_open (x := s.exchange.openTicket.2) hclosed
    unfold Exchange.openTicket at hsend
    cases r with
    | allocate d =>
      simp only [submit, Exchange.openTicket, build, hsend]
      refine .of_message rfl rfl hclosed rfl ?_
      show s.gates.length < (s.gates ++ [_]).length
      rw [List.length_append]
      exact Nat.lt_succ_self _
    | free id start =>
      simp only [submit, Exchange.requestFree, Exchange.openTicket, hsend]
      exact .of_message rfl (List.append_nil _).symm hclosed rfl trivial
    | shutdown =>
      simp only [submit, Exchange.send_open hclosed]
      exact .of_message rfl (List.append_nil _).symm hclosed rfl trivial

theorem Site.interferes_submitAll (requests : List (Request γ)) :
    ∀ s : Site π γ, Interferes s (s.submitAll requests) := by
  induction requests with
  | nil => exact .refl
  | cons r rest ih => exact fun s => (s.interferes_submit r).trans (ih _)

/-- **So is every step of a call.** -/
theorem Call.Step.interferes [Bytewise π] {number : Nat} {gone held : Bool} {h : Handle}
    {s s' : Site π γ} {before after : Progress} {events : List Event}
    (hstep : Step number gone held h s before after s' events) : Interferes s s' := by
  have hunmapping := hstep.unmapping
  cases hstep with
  | retires => exact .of_unmapping rfl hunmapping rfl id
  | revives => exact .of_unmapping rfl hunmapping rfl id
  | unindexes h' =>
    obtain ⟨index, rfl⟩ := unindex_eq h'
    exact .of_eq rfl rfl rfl id
  | requests h' =>
    have hexchange := congrArg Prod.snd h'
    dsimp only at hexchange
    rw [← hexchange]
    exact s.interferes_submit (.free h.id h.start)
  | isUnheard h' =>
    have hexchange := congrArg Prod.snd h'
    dsimp only at hexchange
    rw [← hexchange]
    exact s.interferes_submit (.free h.id h.start)
  | _ => exact .of_eq rfl rfl rfl id

end DemandPager
