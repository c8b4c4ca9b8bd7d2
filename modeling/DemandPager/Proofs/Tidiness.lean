/-
# Memories that are tidy

A memory is tidy if what its pages hold changes with its calls as they say and not otherwise: a
range is filled or dropped by the calls that are to do so, and a call that is about something else,
or that only reads, changes no page. A call may be refused at any time; one that drops content may
then have dropped some of it.

The scripted memory is tidy, whatever refusals are prescribed (`ScriptedMemory.tidy`).

Key definitions: `Paging.Same`, `Paging.Dropped`, `Paging.Given`, `Paging.Tidy`.
Key theorems: `ScriptedMemory.called_permit_bind`, `ScriptedMemory.tidy`.
-/
import DemandPager.Proofs.Moves
import DemandPager.Proofs.Willing

namespace DemandPager

open Worker (Called CalledBreakable)

variable {π : Type}

/-! ### What calls change -/

namespace Paging

section Changes

variable [Paging π] (content : π → Nat → Option Bytes)

/-- Every page holds what it held. -/
structure Same (p p' : π) : Prop where
  pageSize : Paging.pageSize p' = Paging.pageSize p
  content : content p' = content p

/-- Pages of a range may be empty now, and all others hold what they held. -/
structure Dropped (start len : Nat) (p p' : π) : Prop where
  pageSize : Paging.pageSize p' = Paging.pageSize p
  content : ∀ a, content p' a = content p a ∨
    (start ≤ a ∧ a < start + len) ∧ content p' a = none

/-- Pages of a range may hold something new, and all others hold what they held. -/
structure Given (start len : Nat) (p p' : π) : Prop where
  pageSize : Paging.pageSize p' = Paging.pageSize p
  content : ∀ a, content p' a = content p a ∨
    (start ≤ a ∧ a < start + len) ∧ content p' a ≠ none

variable {content} {p p' p'' : π} {start len : Nat}

theorem Same.refl (p : π) : Same content p p := ⟨rfl, rfl⟩

theorem Same.trans (h : Same content p p') (h' : Same content p' p'') : Same content p p'' :=
  ⟨h'.pageSize.trans h.pageSize, h'.content.trans h.content⟩

theorem Same.dropped (h : Same content p p') : Dropped content start len p p' :=
  ⟨h.pageSize, fun a => .inl (congrFun h.content a)⟩

theorem Same.given (h : Same content p p') : Given content start len p p' :=
  ⟨h.pageSize, fun a => .inl (congrFun h.content a)⟩

end Changes

/-- What the pages of a memory hold, and how the calls change it. -/
structure Tidy (π : Type) [Paging π] where
  content : π → Nat → Option Bytes
  reserve : ∀ {len headerLen : Nat} {writable : Bool} {p p' : π} {result : Except PagerError Nat},
    CalledBreakable (Paging.reserve len headerLen writable) p result p' → Same content p p'
  release : ∀ {start len : Nat} {p p' : π} {result : Except PagerError Unit},
    Called (Paging.release start len) p result p' → Dropped content start len p p'
  register : ∀ {start len : Nat} {p p' : π} {result : Except PagerError Unit},
    Called (Paging.register start len) p result p' → Same content p p'
  unregister : ∀ {start len : Nat} {p p' : π} {result : Except PagerError Unit},
    Called (Paging.unregister start len) p result p' → Same content p p'
  zero : ∀ {start len : Nat} {p p' : π} {result : Except PagerError Unit},
    CalledBreakable (Paging.zero start len) p result p' → Given content start len p p'
  /-- A range that was given its content was empty in front. -/
  installed : ∀ {start : Nat} {bytes : Bytes} {p p' : π},
    Called (Paging.install start bytes) p (.ok true) p' →
      content p start = none ∧ Given content start bytes.length p p' ∧
        (0 < Paging.pageSize p → 0 < bytes.length → content p' start ≠ none)
  uninstalled : ∀ {start : Nat} {bytes : Bytes} {p p' : π} {result : Except PagerError Bool},
    Called (Paging.install start bytes) p result p' → result ≠ .ok true → Same content p p'
  discard : ∀ {start len : Nat} {p p' : π} {result : Except PagerError Unit},
    Called (Paging.discard start len) p result p' → Dropped content start len p p'
  readResident : ∀ {start len : Nat} {p p' : π} {result : Except PagerError Bytes},
    Called (Paging.readResident start len) p result p' → Same content p p'

end Paging

/-! ### Offers -/

section Offers

variable {γ : Type} [Paging π] (m : Paging.Tidy π) {pages pages' : π} {client client' : γ}

/-- To offer a chunk changes no page. -/
theorem Offered.same {e : Interval (Object γ)} {k : Nat}
    (h : Offered e k pages client pages' client') : Paging.Same m.content pages pages' := by
  cases h with
  | unwanted => exact .refl _
  | taken _ _ hread => exact m.readResident hread

theorem OfferedAll.same {objects : List (Interval (Object γ))} {records : List ChunkRecord}
    (h : OfferedAll objects records pages client pages' client') :
    Paging.Same m.content pages pages' := by
  induction h with
  | nil => exact .refl _
  | cons _ _ hoffer _ ih => exact (hoffer.same m).trans ih

end Offers

/-! ### The scripted memory -/

/-- The pages of a range begin in it. -/
theorem range_of_mem_pagesIn {ps start len p : Nat} (h : p ∈ pagesIn ps start len) :
    start ≤ p ∧ p < start + len := by
  unfold pagesIn at h
  obtain ⟨i, hi, rfl⟩ := List.mem_map.mp h
  rw [List.mem_range] at hi
  refine ⟨Nat.le_add_right .., Nat.add_lt_add_left ?_ start⟩
  have hps : 0 < ps := Nat.pos_of_ne_zero fun hzero => by
    rw [hzero, Nat.div_zero] at hi
    exact Nat.not_lt_zero _ hi
  have hlast := (Nat.le_div_iff_mul_le hps).mp (Nat.succ_le_of_lt hi)
  rw [Nat.succ_mul] at hlast
  omega

theorem start_mem_pagesIn {ps start len : Nat} (hps : 0 < ps) (hlen : 0 < len) :
    start ∈ pagesIn ps start len := by
  refine List.mem_map.mpr ⟨0, List.mem_range.mpr (Nat.div_pos (by omega) hps), ?_⟩
  rw [Nat.zero_mul, Nat.add_zero]

namespace ScriptedMemory

variable {m m' : ScriptedMemory} {α : Type}

/-- What a page holds. -/
def content (m : ScriptedMemory) (page : Nat) : Option Bytes := m.table.get? page

theorem Same.tidy (h : m.Same m') : Paging.Same content m m' :=
  ⟨h.pageSize, funext fun a => congrArg (·.get? a) h.table⟩

/-- A call is refused and changes no page, or it goes on. -/
theorem called_permit_bind {call : PagingCall} {next : Unit → EStateM PagerError ScriptedMemory α}
    {result : Except PagerError α} (h : Called (permit call >>= next) m result m') :
    (∃ cause, result = .error cause) ∧ Paging.Same content m m' ∨ Called (next ()) m result m' := by
  unfold Called at h
  rcases permit_bind_cases call next m with heq | ⟨cause, m₁, heq, hsame⟩
  · rw [heq] at h
    exact .inr h
  · rw [heq] at h
    obtain ⟨hresult, rfl⟩ := h
    exact .inl ⟨⟨cause, hresult⟩, hsame.tidy⟩

theorem called_permit {call : PagingCall} {result : Except PagerError Unit}
    (h : Called (permit call) m result m') : Paging.Same content m m' := by
  unfold Called at h
  rcases permit_cases call m with heq | ⟨cause, m₁, heq, hsame⟩
  · rw [heq] at h
    obtain ⟨-, rfl⟩ := h
    exact .refl _
  · rw [heq] at h
    obtain ⟨-, rfl⟩ := h
    exact hsame.tidy

theorem calledBreakable_permit_bind {call : PagingCall}
    {next : Unit → EStateM Failure ScriptedMemory α} {result : Except PagerError α}
    (h : CalledBreakable ((permit call).adaptExcept Failure.error >>= next) m result m') :
    Paging.Same content m m' ∨ CalledBreakable (next ()) m result m' := by
  unfold CalledBreakable at h
  rcases adapt_permit_bind_cases call next m with heq | ⟨cause, m₁, heq, hsame⟩
  · rw [heq] at h
    exact .inr h
  · rw [heq] at h
    obtain ⟨-, rfl⟩ := h
    exact .inl hsame.tidy

/-- A call that begins with a look at the memory. -/
theorem called_get_bind {next : ScriptedMemory → EStateM PagerError ScriptedMemory α}
    {result : Except PagerError α} (h : Called (get >>= next) m result m') :
    Called (next m) m result m' := h

theorem calledBreakable_get_bind {next : ScriptedMemory → EStateM Failure ScriptedMemory α}
    {result : Except PagerError α} (h : CalledBreakable (get >>= next) m result m') :
    CalledBreakable (next m) m result m' := h

theorem dropped_dropRange (m : ScriptedMemory) (start len : Nat) :
    Paging.Dropped content start len m (m.withTable (m.table.dropRange start len)) := by
  refine ⟨rfl, fun a => ?_⟩
  show (m.table.dropRange start len).get? a = m.table.get? a ∨
    _ ∧ (m.table.dropRange start len).get? a = none
  rw [PageTable.get?_dropRange]
  by_cases hin : start ≤ a ∧ a < start + len
  · exact .inr ⟨hin, if_pos hin⟩
  · exact .inl (if_neg hin)

/-- Pages of a range that are set are given their content. -/
theorem given_setAll (m : ScriptedMemory) {start len : Nat} {pages : List (Nat × Bytes)}
    (hpages : pages.map (·.1) = pagesIn m.pageSize start len) :
    Paging.Given content start len m (m.withTable (m.table.setAll pages)) := by
  refine ⟨rfl, fun a => ?_⟩
  show (m.table.setAll pages).get? a = m.table.get? a ∨ _ ∧ (m.table.setAll pages).get? a ≠ none
  by_cases hmem : a ∈ pagesIn m.pageSize start len
  · have hcontains := (PageTable.contains_setAll (q := a) pages m.table).mpr (.inl (hpages ▸ hmem))
    rw [PageTable.contains_iff] at hcontains
    exact .inr ⟨range_of_mem_pagesIn hmem, Option.isSome_iff_ne_none.mp hcontains⟩
  · exact .inl (PageTable.get?_setAll_of_not_mem pages m.table (hpages ▸ hmem))

/-- Content is installed in an empty range, or nothing changes. -/
theorem install_cases {start : Nat} {bytes : Bytes} {result : Except PagerError Bool}
    (h : Called (Paging.install start bytes) m result m') :
    result ≠ .ok true ∧ Paging.Same content m m' ∨
      m.table.contains start = false ∧ result = .ok true ∧
        m' = m.withTable (m.installed start bytes) := by
  rcases called_permit_bind h with ⟨⟨cause, rfl⟩, hsame⟩ | h
  · exact .inl ⟨fun heq => (by cases heq), hsame⟩
  replace h := called_get_bind h
  cases hpresent : m.table.contains start with
  | true =>
    rw [hpresent, if_pos rfl] at h
    obtain ⟨rfl, rfl⟩ := h
    exact .inl ⟨fun heq => (by cases heq), rfl, rfl⟩
  | false =>
    rw [hpresent, if_neg Bool.false_ne_true] at h
    exact .inr ⟨rfl, h⟩

/-- **The scripted memory is tidy**, whatever refusals are prescribed. -/
def tidy : Paging.Tidy ScriptedMemory where
  content := content
  reserve {len headerLen writable m m' result} h := by
    refine (calledBreakable_permit_bind h).elim id fun h => ?_
    replace h := calledBreakable_get_bind h
    cases hdetour : m.detour with
    | some start =>
      rw [hdetour] at h
      obtain ⟨-, rfl⟩ := h
      exact ⟨rfl, rfl⟩
    | none =>
      rw [hdetour] at h
      by_cases hlarge : wordBound ≤ m.next + len + m.pageSize
      · simp only [hlarge] at h
        exact h.elim
      · simp only [hlarge] at h
        obtain ⟨-, rfl⟩ := h
        exact ⟨rfl, rfl⟩
  release h := by
    rcases called_permit_bind h with ⟨-, hsame⟩ | ⟨-, rfl⟩
    · exact hsame.dropped
    · exact dropped_dropRange ..
  register h := called_permit h
  unregister h := called_permit h
  zero {start len m m' result} h := by
    refine (calledBreakable_permit_bind h).elim (·.given) fun h => ?_
    unfold CalledBreakable at h
    by_cases hlarge : wordBound ≤ start + len
    · simp only [hlarge] at h
      exact h.elim
    · simp only [hlarge] at h
      obtain ⟨-, rfl⟩ := h
      exact given_setAll m (map_fst_zeros m start len)
  installed {start bytes m m'} h := by
    rcases install_cases h with ⟨hne, -⟩ | ⟨hempty, -, rfl⟩
    · exact absurd rfl hne
    refine ⟨?_, given_setAll m (map_fst_cut m start bytes), fun hps hlen => ?_⟩
    · exact Option.not_isSome_iff_eq_none.mp fun hsome =>
        Bool.eq_false_iff.mp hempty (PageTable.contains_iff.mpr hsome)
    · have hmem : start ∈ (cutPages m.pageSize _ start bytes).map (·.1) :=
        (map_fst_cut m start bytes).symm ▸ start_mem_pagesIn hps hlen
      have hcontains := (PageTable.contains_setAll _ m.table).mpr (.inl hmem)
      exact Option.isSome_iff_ne_none.mp (PageTable.contains_iff.mp hcontains)
  uninstalled h hresult := by
    rcases install_cases h with ⟨-, hsame⟩ | ⟨-, hok, -⟩
    · exact hsame
    · exact absurd hok hresult
  discard h := by
    rcases called_permit_bind h with ⟨-, hsame⟩ | ⟨-, rfl⟩
    · exact hsame.dropped
    · exact dropped_dropRange ..
  readResident {start len m m' result} h := by
    refine (called_permit_bind h).elim And.right fun h => ?_
    replace h := called_get_bind h
    cases hread : m.table.read m.pageSize start len with
    | ok bytes =>
      rw [hread] at h
      obtain ⟨-, rfl⟩ := h
      exact ⟨rfl, rfl⟩
    | error x =>
      rw [hread] at h
      obtain ⟨-, rfl⟩ := h
      exact ⟨rfl, rfl⟩

end ScriptedMemory
end DemandPager
