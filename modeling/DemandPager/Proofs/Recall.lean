/-
# What the log tells of the memory

Callers store single bytes, and the worker calls the memory; nothing else is done to it, and
the log has all of it in its order (`Floor.Reaches.retold`). So each moment of the log has
its memory. Between two of them a byte keeps its value unless it is stored to or dropped,
a byte that is not there does not come back, and what was read was there.

Key definitions: `Event.Effect`, `Retold`, `Event.drops`, `Event.storesTo`, `Event.reads`,
`Event.Told`.
Key theorems: `Floor.Reaches.retold`, `Event.Effect.told`, `Event.Effect.read`,
`Retold.load_eq`, `Retold.load_none`.
-/
import DemandPager.Proofs.Contents
import DemandPager.Proofs.Gates
import DemandPager.Proofs.Willing

namespace DemandPager

variable {π γ : Type}

section Events

variable [Paging π] [Bytewise π] {p p₁ p' : π} {e : Event} {log log' : List Event}

/-- What an event did to the memory; nothing is laid out or filled. -/
def Event.Effect : Event → π → π → Prop
  | .deed (.entry entry), p, p' => entry.isSupply = false ∧ entry.Effect p p'
  | .stored _ address b, p, p' => Bytewise.store address b p = some p'
  | _, p, p' => p' = p

/-- The events, one after the other, lead from one memory to the other. -/
inductive Retold : π → List Event → π → Prop
  | nil {p : π} : Retold p [] p
  | cons {p p₁ p' : π} {e : Event} {log : List Event} (he : e.Effect p p₁)
      (h : Retold p₁ log p') : Retold p (e :: log) p'

theorem Retold.append (h : Retold p log p₁) (h' : Retold p₁ log' p') :
    Retold p (log ++ log') p' := by
  induction h with
  | nil => exact h'
  | cons he _ ih => exact .cons he (ih h')

/-- Every moment of the log has its memory. -/
theorem Retold.split (h : Retold p (log ++ log') p') :
    ∃ p₁, Retold p log p₁ ∧ Retold p₁ log' p' := by
  induction log generalizing p with
  | nil => exact ⟨p, .nil, h⟩
  | cons e log ih =>
    cases h with
    | cons he hrest =>
      obtain ⟨p₁, hlog, hlog'⟩ := ih hrest
      exact ⟨p₁, .cons he hlog, hlog'⟩

/-- Every event of the log has a memory before it and one after it. -/
theorem Retold.at (h : Retold p (log ++ e :: log') p') :
    ∃ p₁ p₂, Retold p log p₁ ∧ e.Effect p₁ p₂ ∧ Retold p₂ log' p' := by
  obtain ⟨p₁, hlog, hrest⟩ := h.split
  cases hrest with
  | cons he hlog' => exact ⟨p₁, _, hlog, he, hlog'⟩

theorem Replays.retold {es : List JournalEntry} (h : Replays p es p')
    (hspare : ∀ e ∈ es, e.isSupply = false) : Retold p ((es.map Deed.entry).map .deed) p' := by
  induction h with
  | nil => exact .nil
  | cons he _ ih =>
    obtain ⟨hfirst, hrest⟩ := List.forall_mem_cons.mp hspare
    exact .cons ⟨hfirst, he⟩ (ih hrest)

omit [Paging π] in
theorem Call.Step.retold [Paging π] {number : Nat} {gone held : Bool} {h : Handle}
    {s s' : Site π γ} {before after : Progress} {events : List Event}
    (hstep : Step number gone held h s before after s' events) :
    Retold s.pages events s'.pages := by
  cases hstep with
  | stores hstore => exact .cons hstore .nil
  | copied => exact .cons rfl .nil
  | revives => exact .cons rfl .nil
  | _ => exact .nil

end Events

namespace Floor

variable [Paging π] [Bytewise π] {O : List (Interval (Object γ))} {f f' f₀ : Floor π γ}

/-- What a step does to the memory is logged. -/
theorem Next.retold (h : Next f f') (hf : f.Attends O) : ∃ events, f'.log = f.log ++ events ∧
    Retold f.worker.pages events f'.worker.pages := by
  have hquiet : f'.log = f.log → f'.worker.pages = f.worker.pages →
      ∃ events, f'.log = f.log ++ events ∧ Retold f.worker.pages events f'.worker.pages := by
    intro hlog hpages
    rw [hlog, hpages]
    exact ⟨[], (List.append_nil _).symm, .nil⟩
  have hpart : ∀ {β : Type} {task : Task γ} {step : WorkerM π γ β} {next : β → Errand π γ Flow},
      f.duty = .busy task (.part step next) → Worker.Accounts step f.worker := by
    intro β task step next hduty
    unfold Attends at hf
    rw [hduty] at hf
    exact hf.1.1 f.worker
  have hnews : ∀ {w : Worker π γ} {es : List JournalEntry}, Accounted f.worker w es →
      Retold f.worker.pages (f.news w) w.pages := by
    intro w es hes
    unfold news
    rw [hes.journal, List.drop_left]
    exact hes.pages.retold hes.spare
  cases h with
  | called => exact hquiet rfl rfl
  | advanced hcall hstep => exact ⟨_, rfl, (Call.step_of_advance hstep).retold⟩
  | requested hsite => cases hsite <;> exact hquiet rfl rfl
  | gaveUp => exact hquiet rfl rfl
  | took => exact hquiet rfl rfl
  | evicts => exact hquiet rfl rfl
  | fails => exact hquiet rfl rfl
  | finished => exact hquiet rfl rfl
  | parted hduty hact =>
    obtain ⟨es, hes⟩ := (hpart hduty).of_ok hact
    exact ⟨_, rfl, hnews hes⟩
  | failed hduty hact =>
    obtain ⟨es, hes⟩ := (hpart hduty).of_error hact
    exact ⟨_, rfl, hnews hes⟩
  | turned => exact ⟨_, rfl, .cons rfl .nil⟩

/-- **The log tells what was done to the memory.** -/
theorem Reaches.retold (h : Reaches f₀ f) (h₀ : f₀.Opens) :
    Retold f₀.worker.pages f.log f.worker.pages := by
  induction h with
  | refl =>
    rw [h₀.log]
    exact .nil
  | step hreach hmove ih =>
    obtain ⟨events, hlog, hevents⟩ := (next_of_move hmove).retold (hreach.attends h₀)
    rw [hlog]
    exact ih.append hevents

end Floor

/-! ### Calls that may be refused -/

namespace ScriptedMemory

open Worker (Called)

variable {m m' : ScriptedMemory} {start len : Nat} {result : Except PagerError Unit}

/-- A call that drops a range drops it, or is refused. -/
theorem called_drop {call : PagingCall} (hcall : Called (permit call >>= fun _ =>
      modify fun m => { m with table := m.table.dropRange start len }) m result m') :
    (result = .ok () ∧ m' = m.withTable (m.table.dropRange start len)) ∨
      (∃ cause, result = .error cause) ∧ m.Same m' := by
  unfold Called at hcall
  rcases permit_bind_cases call (fun _ => modify fun m : ScriptedMemory =>
    { m with table := m.table.dropRange start len }) m with heq | ⟨cause, m₁, heq, hsame⟩
  · rw [heq] at hcall
    exact .inl hcall
  · rw [heq] at hcall
    obtain ⟨hresult, rfl⟩ := hcall
    exact .inr ⟨⟨cause, hresult⟩, hsame⟩

theorem same_of_unregister (hcall : Called (Paging.unregister start len) m result m') :
    m.Same m' := by
  change Called (permit .unregister) m result m' at hcall
  unfold Called at hcall
  rcases permit_cases .unregister m with heq | ⟨cause, m₁, heq, hsame⟩
  · rw [heq] at hcall
    obtain ⟨-, rfl⟩ := hcall
    exact ⟨rfl, rfl⟩
  · rw [heq] at hcall
    obtain ⟨-, rfl⟩ := hcall
    exact hsame

/-- A read changes no page, and answers what is there. -/
theorem same_of_readResident {read : Except PagerError Bytes}
    (hcall : Called (Paging.readResident start len) m read m') :
    m.Same m' ∧ ∀ bytes, read = .ok bytes → m.table.read m.pageSize start len = .ok bytes := by
  unfold Called at hcall
  obtain heq | ⟨cause, m₁, heq, hsame⟩ :
      (Paging.readResident start len : EStateM PagerError ScriptedMemory Bytes) m = _ ∨
        ∃ cause m₁, (Paging.readResident start len : EStateM PagerError ScriptedMemory Bytes) m =
          .error cause m₁ ∧ m.Same m₁ := permit_bind_cases .readResident _ m
  · have hread : (Paging.readResident start len : EStateM PagerError ScriptedMemory Bytes) m = _ :=
      heq.trans (get_bind _)
    rw [hread] at hcall
    cases hcontent : m.table.read m.pageSize start len with
    | ok bytes =>
      rw [hcontent] at hcall
      obtain ⟨rfl, rfl⟩ := hcall
      refine ⟨⟨rfl, rfl⟩, fun _ h => ?_⟩
      cases h
      rfl
    | error x =>
      rw [hcontent] at hcall
      obtain ⟨rfl, rfl⟩ := hcall
      exact ⟨⟨rfl, rfl⟩, fun bytes h => by cases h⟩
  · have hread :
      (Paging.readResident start len : EStateM PagerError ScriptedMemory Bytes) m = _ := heq
    rw [hread] at hcall
    obtain ⟨rfl, rfl⟩ := hcall
    exact ⟨hsame, fun bytes h => by cases h⟩

end ScriptedMemory

/-! ### Single bytes -/

/-- Pages have a size, and all have it. -/
structure ScriptedMemory.Paged (m : ScriptedMemory) : Prop where
  page_pos : 0 < m.pageSize
  whole : m.table.Whole m.pageSize

/-- The page of an address is dropped. -/
def Event.drops (pageSize a : Nat) : Event → Bool
  | .deed (.entry (.discard start len (.ok _))) | .deed (.entry (.release start len (.ok _))) =>
    start ≤ pageOf pageSize a && pageOf pageSize a < start + len
  | _ => false

/-- The byte at an address is stored to. -/
def Event.storesTo (a : Nat) : Event → Bool
  | .stored _ address _ => address == a
  | _ => false

/-- The byte at an address is read by the worker. -/
def Event.reads (a : Nat) : Event → Bool
  | .deed (.entry (.readResident start len (.ok _))) => start ≤ a && a < start + len
  | _ => false

/-- What an event does to single bytes. -/
structure Event.Told (e : Event) (m m' : ScriptedMemory) : Prop where
  paged : m'.Paged
  pageSize : m'.pageSize = m.pageSize
  dropped : ∀ a, e.drops m.pageSize a → Bytewise.load a m' = none
  stored : ∀ {call a : Nat} {b : UInt8}, e = .stored call a b →
    Bytewise.load a m ≠ none ∧ Bytewise.load a m' = some b
  spared : ∀ a, e.drops m.pageSize a = false → e.storesTo a = false →
    Bytewise.load a m' = Bytewise.load a m

section Bytes

open Bytewise (load)

variable {m m' : ScriptedMemory} {e : Event} {log : List Event} {start len a : Nat}

theorem ScriptedMemory.Same.told (h : m.Same m') (hm : m.Paged)
    (hdrops : ∀ a, e.drops m.pageSize a = false) (hstored : ∀ call a b, e ≠ .stored call a b) :
    e.Told m m' where
  paged := ⟨h.pageSize ▸ hm.page_pos, h.pageSize ▸ h.table ▸ hm.whole⟩
  pageSize := h.pageSize
  dropped := fun a ha => by rw [hdrops] at ha; cases ha
  stored := fun heq => (hstored _ _ _ heq).elim
  spared := fun a _ _ => by
    show m'.table.byte? m'.pageSize a = m.table.byte? m.pageSize a
    rw [h.pageSize, h.table]

theorem told_drop (hm : m.Paged) (hdrops : ∀ a, e.drops m.pageSize a =
      (start ≤ pageOf m.pageSize a && pageOf m.pageSize a < start + len : Bool))
    (hstored : ∀ call a b, e ≠ .stored call a b) :
    e.Told m (m.withTable (m.table.dropRange start len)) where
  paged := ⟨hm.page_pos, hm.whole.dropRange⟩
  pageSize := rfl
  dropped := fun a ha => by
    rw [hdrops, Bool.and_eq_true, decide_eq_true_eq, decide_eq_true_eq] at ha
    exact (PageTable.byte?_dropRange ..).trans (if_pos ha)
  stored := fun heq => (hstored _ _ _ heq).elim
  spared := fun a ha _ => by
    rw [hdrops, Bool.and_eq_false_iff, decide_eq_false_iff_not, decide_eq_false_iff_not] at ha
    exact (PageTable.byte?_dropRange ..).trans (if_neg (not_and_or.mpr ha))

theorem told_store {call address : Nat} {b : UInt8} (hm : m.Paged)
    (h : Bytewise.store address b m = some m') : (Event.stored call address b).Told m m' := by
  change (if (load address m).isSome then _ else _) = some m' at h
  split at h
  · rename_i hthere
    cases h
    have hwritten := PageTable.write_overwritten hm.page_pos hm.whole address [b]
    have hne : load address m ≠ none := Option.isSome_iff_ne_none.mp hthere
    refine ⟨⟨hm.page_pos, hwritten.whole⟩, rfl, fun a ha => (by cases ha), fun heq => ?_,
      fun a _ ha => ?_⟩
    · cases heq
      refine ⟨hne, (hwritten.inside address (Nat.le_refl _) (Nat.lt_succ_self _) hne).trans ?_⟩
      rw [Nat.sub_self]
      rfl
    · have hapart : address ≠ a := fun heq => by
        rw [heq] at ha
        simp [Event.storesTo] at ha
      refine hwritten.outside a ?_
      rw [List.length_singleton]
      omega
  · cases h

/-- **What an event does to single bytes.** -/
theorem Event.Effect.told (h : e.Effect m m') (hm : m.Paged) : e.Told m m' := by
  have hsame : m' = m → (∀ a, e.drops m.pageSize a = false) → (∀ call a b, e ≠ .stored call a b) →
      e.Told m m' := by
    rintro rfl hdrops hstored
    exact ScriptedMemory.Same.told ⟨rfl, rfl⟩ hm hdrops hstored
  cases e with
  | stored call address b => exact told_store hm h
  | copied call => exact hsame h (fun _ => rfl) fun _ _ _ heq => by cases heq
  | revived call number => exact hsame h (fun _ => rfl) fun _ _ _ heq => by cases heq
  | deed d =>
    have hstored : ∀ call a b, Event.deed d ≠ .stored call a b := fun _ _ _ heq => by cases heq
    cases d with
    | turn start number t => exact hsame h (fun _ => rfl) hstored
    | entry entry =>
      obtain ⟨hspare, h⟩ := h
      cases entry with
      | release start len result =>
        rcases ScriptedMemory.called_drop h with ⟨rfl, rfl⟩ | ⟨⟨cause, rfl⟩, hrefused⟩
        · exact told_drop hm (fun _ => rfl) hstored
        · exact hrefused.told hm (fun _ => rfl) hstored
      | discard start len result =>
        rcases ScriptedMemory.called_drop h with ⟨rfl, rfl⟩ | ⟨⟨cause, rfl⟩, hrefused⟩
        · exact told_drop hm (fun _ => rfl) hstored
        · exact hrefused.told hm (fun _ => rfl) hstored
      | unregister start len result =>
        exact (ScriptedMemory.same_of_unregister h).told hm (fun _ => rfl) hstored
      | readResident start len result =>
        exact (ScriptedMemory.same_of_readResident h).1.told hm (fun _ => rfl) hstored
      | reserve | register | zero | install | readFaults => cases hspare
      | _ => exact hsame h (fun _ => rfl) hstored

/-- What is read was there. -/
theorem Event.Effect.read {bytes : Bytes}
    (h : (Event.deed (.entry (.readResident start len (.ok bytes)))).Effect m m') (hm : m.Paged) :
    bytes.length = len ∧ ∀ i < len, load (start + i) m = bytes[i]? :=
  PageTable.read_eq_ok hm.page_pos hm.whole ((ScriptedMemory.same_of_readResident h.2).2 bytes rfl)

namespace Retold

theorem steady (h : Retold m log m') (hm : m.Paged) : m'.Paged ∧ m'.pageSize = m.pageSize := by
  induction h with
  | nil => exact ⟨hm, rfl⟩
  | cons he _ ih =>
    have htold := he.told hm
    obtain ⟨hpaged, hsize⟩ := ih htold.paged
    exact ⟨hpaged, hsize.trans htold.pageSize⟩

/-- A byte keeps its value unless it is dropped or stored to. -/
theorem load_eq (h : Retold m log m') (hm : m.Paged)
    (hlog : ∀ e ∈ log, e.drops m.pageSize a = false ∧ e.storesTo a = false) :
    load a m' = load a m := by
  induction h with
  | nil => rfl
  | @cons m m₁ m' e log he _ ih =>
    have htold := he.told hm
    obtain ⟨hdrops, hstores⟩ := hlog e (List.mem_cons_self ..)
    rw [ih htold.paged fun x hx => htold.pageSize ▸ hlog x (List.mem_cons_of_mem _ hx)]
    exact htold.spared a hdrops hstores

/-- A byte that is not there does not come back. -/
theorem load_none (h : Retold m log m') (hm : m.Paged) (hnone : load a m = none) :
    load a m' = none := by
  induction h with
  | nil => exact hnone
  | @cons m m₁ m' e log he _ ih =>
    have htold := he.told hm
    refine ih htold.paged ?_
    cases hdrops : e.drops m.pageSize a with
    | true => exact htold.dropped a hdrops
    | false =>
      cases hstores : e.storesTo a with
      | true =>
        unfold Event.storesTo at hstores
        split at hstores
        · rw [beq_iff_eq] at hstores
          subst hstores
          exact absurd hnone (htold.stored rfl).1
        · cases hstores
      | false => rw [htold.spared a hdrops hstores, hnone]

/-- A byte whose page was dropped is not there. -/
theorem load_dropped (h : Retold m log m') (hm : m.Paged) (he : e ∈ log)
    (hdrops : e.drops m.pageSize a) : load a m' = none := by
  obtain ⟨before, after, rfl⟩ := List.append_of_mem he
  obtain ⟨m₁, m₂, hbefore, heffect, hafter⟩ := h.at
  obtain ⟨hpaged, hsize⟩ := hbefore.steady hm
  have htold := heffect.told hpaged
  exact hafter.load_none htold.paged (htold.dropped a (hsize ▸ hdrops))

end Retold
end Bytes
end DemandPager
