/-
# The chunks of live records are there in full

Where content is installed, a memory may be relied on to give it to the whole range or to none of it
(`Paging.Thorough`); the scripted memory does. Then each page of the chunk of a live record has
content, in every history in which the host takes no page away and no reservation meets an object
(`Worker.History.present`). For what is dropped is either the range of a chunk, and no page of that
is one of another chunk on record, or the reservation of an object, whose records are retired.

Key definitions: `Paging.Thorough`, `ChunkRecord.Present`.
Key theorems: `ScriptedMemory.thorough`, `Sited.address_eq_of_covers`, `Move.present`,
`Worker.History.present`.
-/
import DemandPager.Proofs.Backing

namespace DemandPager

open Worker (Called CalledBreakable)

variable {π γ : Type}

/-! ### Installing a whole range -/

/-- Whole pages that are installed are there, each of them. -/
structure Paging.Thorough [Paging π] (m : Paging.Tidy π) : Prop where
  installed : ∀ {start : Nat} {bytes : Bytes} {p p' : π},
    Called (Paging.install start bytes) p (.ok true) p' → 0 < Paging.pageSize p →
      Paging.pageSize p ∣ bytes.length → ∀ a, start ≤ a → a < start + bytes.length →
        a % Paging.pageSize p = start % Paging.pageSize p → m.content p' a ≠ none

/-- The scripted memory installs whole ranges, whatever refusals are prescribed. -/
theorem ScriptedMemory.thorough : Paging.Thorough ScriptedMemory.tidy where
  installed {start bytes p p'} h hps hlen a hlow hhigh hmod := by
    rcases install_cases h with ⟨hne, -⟩ | ⟨-, -, rfl⟩
    · exact absurd rfl hne
    · have hcontains := (contains_installed hps hlen).mpr (.inl ⟨hlow, hhigh, hmod⟩)
      exact Option.isSome_iff_ne_none.mp (PageTable.contains_iff.mp hcontains)

variable [Paging π] {m : Paging.Tidy π} {s s' : View π γ} {e e' : Interval (Object γ)}
  {r r' : ChunkRecord} {k k' a : Nat}

/-! ### Chunks apart -/

namespace Sited

/-- Chunks with a common address are one chunk. -/
theorem address_eq_of_covers (h : Sited s) (he : e ∈ s.objects) (hr : r.IsChunkOf e k)
    (he' : e' ∈ s.objects) (hr' : r'.IsChunkOf e' k') (ha : r.Covers a) (ha' : r'.Covers a) :
    r.address = r'.address := by
  rcases Nat.le_total r.address r'.address with hle | hle
  · exact (h.address_eq he hr he' hr' ⟨hle, ha'.1.trans_lt ha.2⟩).symm
  · exact h.address_eq he' hr' he hr ⟨hle, ha.1.trans_lt ha'.2⟩

end Sited

/-! ### Chunks in full -/

/-- Every page of the chunk of the record has content. A retired record has no chunk. -/
def ChunkRecord.Present (m : Paging.Tidy π) (pages : π) (r : ChunkRecord) : Prop :=
  ∀ a, r.Covers a → a % Paging.pageSize pages = r.address % Paging.pageSize pages →
    m.content pages a ≠ none

namespace ChunkRecord.Present

variable {pages pages' : π}

/-- Pages that are not of the chunk have gone. -/
theorem change (h : r.Present m pages) {start len : Nat}
    (hpages : Paging.Recedes m.content start len pages pages')
    (hout : ∀ a, r.Covers a → ¬(start ≤ a ∧ a < start + len)) : r.Present m pages' := by
  intro a ha hmod hnone
  rw [hpages.pageSize] at hmod
  exact hout a ha (hpages.content a (h a ha hmod) hnone)

theorem keep (h : r.Present m pages) (hpages : Paging.Recedes m.content 0 0 pages pages') :
    r.Present m pages' :=
  h.change hpages fun _ _ hin => Nat.not_lt_zero _ (Nat.add_zero 0 ▸ hin.2)

end ChunkRecord.Present

/-- The content of a chunk is installed in all its pages. -/
theorem Backed.present_installed (h : Backed m s) (hm : Paging.Thorough m) (he : e ∈ s.objects)
    (hr : r.IsChunkOf e k) {content : Bytes} {client : γ} {pages : π}
    (hfill : Filled e k s.client content client)
    (hinstall : Called (Paging.install r.address content) s.pages (.ok true) pages) :
    r.Present m pages := by
  have hlength := hfill.length hr (h.regular he)
  have hwhole : Paging.pageSize s.pages ∣ content.length := by
    rw [hlength, hr.size, ← h.page e he]
    exact Geometry.Regular.bytes_dvd
  have hpage := (h.installed he hr hfill hinstall).2.2.pageSize
  intro a ha hmod
  rw [hpage] at hmod
  exact hm.installed hinstall (h.page_pos he) hwhole a ha.1 (hlength ▸ ha.2) hmod

/-- **Every move keeps the chunks on record in full.** -/
theorem Move.present (h : Move s s') (hb : Backed m s) (hm : Paging.Thorough m)
    (hs : ∀ r ∈ s.records, r.Present m s.pages) : ∀ r ∈ s'.records, r.Present m s'.pages := by
  cases h with
  | skip hrecords => exact fun x hx => hs x (hrecords ▸ List.mem_cons_of_mem _ hx)
  | @evict r rest e k _ _ _ _ hrecords he hr hoffer hdiscard =>
    intro x hx
    have hmem : x ∈ s.records := hrecords ▸ List.mem_cons_of_mem _ hx
    have hpages := (hoffer.same m).recedes.trans (m.discard hdiscard).recedes
    refine (hs x hmem).change hpages fun a ha hin => ?_
    -- an address of both chunks would make them one, which has one record only
    obtain ⟨e', he', k', hk⟩ := hb.chunks x hmem ha.isLive
    have hlive : r.isLive = true := ChunkRecord.isLive_iff.mpr (hr.size_pos (hb.regular he))
    have hpairs := hb.apart
    rw [hrecords, List.pairwise_cons] at hpairs
    exact hpairs.1 x hx hlive ha.isLive (hb.address_eq_of_covers he hr he' hk hin ha)
  | lose hlose =>
    obtain ⟨hrecords, -, -, -, hread⟩ := hlose
    exact fun x hx =>
      (hs x (hrecords ▸ List.mem_cons_of_mem _ hx)).keep (m.readResident hread).recedes
  | offer _ _ _ hoffer => exact fun x hx => (hs x hx).keep (hoffer.same m).recedes
  | unread hread => exact fun x hx => (hs x hx).keep (m.readResident hread).recedes
  | unregister hcall => exact fun x hx => (hs x hx).keep (m.unregister hcall).recedes
  | giveUp => exact hs
  | load he hr hfill hinstall =>
    intro x hx
    rcases List.mem_append.mp hx with hold | hnew
    · exact (hs x hold).keep (hb.installed he hr hfill hinstall).2.2
    · rw [List.mem_singleton.mp hnew]
      exact hb.present_installed hm he hr hfill hinstall
  | spill he hr hfill hinstall =>
    exact fun x hx => (hs x hx).keep (hb.installed he hr hfill hinstall).2.2
  | waste _ _ _ hinstall hresult =>
    exact fun x hx => (hs x hx).keep (m.uninstalled hinstall hresult).recedes
  | @strike e _ _ _ _ _ he hoffer hunregister hrelease =>
    intro x hx a ha
    obtain ⟨hmem, howner⟩ := Ring.of_mem_retired hx ha.isLive
    have hfreed := (hoffer.same m).trans (m.unregister hunregister)
    refine (hs x hmem).change (hfreed.recedes.trans (m.release hrelease).recedes) ?_ a ha
    -- what is live is a chunk of an object that stays
    intro a ha hin
    obtain ⟨e', he', k', hk⟩ := hb.chunks x hmem ha.isLive
    obtain rfl := hb.objects.eq_of_holds he' he (hb.holds_of_covers he' hk ha) hin
    exact howner hk.owner

/-- To create an object keeps the chunks on record in full, if its reservation meets no object. -/
theorem Placing.present {o : Object γ} (h : Placing o s s') (hb : Backed m s)
    (hvacant : ∀ start pages, CalledBreakable (Paging.reserve o.geometry.trueSize
      o.geometry.paddedHeader (!o.geometry.readOnly)) s.pages (.ok start) pages →
        ∀ e ∈ s.objects, e.Apart start o.geometry.trueSize)
    (hs : ∀ r ∈ s.records, r.Present m s.pages) : ∀ r ∈ s'.records, r.Present m s'.pages := by
  obtain ⟨hrecords, start, len, hapart, hpages⟩ := h.recedes m hvacant
  intro r hr
  rw [hrecords] at hr
  refine (hs r hr).change hpages fun a ha => ?_
  obtain ⟨e, he, k, hk⟩ := hb.chunks r hr ha.isLive
  exact (hapart e he).not_within (hb.holds_of_covers he hk ha)

namespace Worker

/-- **In every history the chunk of each live record is there in full.** -/
theorem History.present {w : Worker π γ} (h : History (undisturbed m) w) (hm : Paging.Thorough m) :
    ∀ r ∈ w.ring.toList, r.Present m w.pages := by
  suffices hboth : Backed m w.view ∧ ∀ r ∈ w.view.records, r.Present m w.view.pages from hboth.2
  refine h.view_induction (P := fun s => Backed m s ∧ ∀ r ∈ s.records, r.Present m s.pages)
    (fun site growable _ => ?_) (fun v site hdrift hv => ?_)
    (fun v o s hupright ho hasked hplacing hv => ?_) fun s s' hmove hs => ?_
  · exact ⟨.of_empty rfl rfl, fun _ hr => absurd hr List.not_mem_nil⟩
  · exact ⟨hv.1.keep hdrift _, fun r hr => (hv.2 r hr).keep hdrift⟩
  · exact ⟨hplacing.backed hv.1 ho hasked, hplacing.present hv.1 hasked hv.2⟩
  · exact ⟨hmove.backed hs.1, hmove.present hs.1 hm hs.2⟩

end Worker
end DemandPager
