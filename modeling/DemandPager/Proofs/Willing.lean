/-
# A memory that refuses nothing

A scripted memory without prescribed refusals. Its calls do what they are told: each
has one answer and one effect on the pages that have content, and only a read can fail,
at a byte that is not there. With prescribed refusals a call goes on in the same way, or
it is refused and leaves the pages alone (`ScriptedMemory.permit_bind_cases`).

Key definitions: `ScriptedMemory.Willing`, `ScriptedMemory.nextStart`,
`ScriptedMemory.installed`, `ScriptedMemory.zeroed`, `ScriptedMemory.Same`.
Key theorems: `ScriptedMemory.called_install`, `ScriptedMemory.called_discard`,
`ScriptedMemory.called_readResident`, `ScriptedMemory.called_zero`,
`ScriptedMemory.permit_bind_cases`.
-/
import DemandPager.Paging.Scripted
import DemandPager.Proofs.Ends
import DemandPager.Proofs.Pages

namespace DemandPager
namespace ScriptedMemory

open Worker (Called CalledBreakable)

variable {m m' : ScriptedMemory} {start len : Nat} {result : Except PagerError Unit}

/-- Where the next reservation will begin. -/
def nextStart (m : ScriptedMemory) : Nat := m.detour.getD m.next

/-- No call is to fail. -/
def Willing (m : ScriptedMemory) : Prop := ∀ call times, m.failing.lookup call ≠ some (times + 1)

theorem Willing.of_nil (h : m.failing = []) : m.Willing := by
  intro call times
  rw [h]
  exact (Option.some_ne_none _).symm

/-- A step that begins with a look at the memory. -/
theorem get_bind {ε α : Type} (next : ScriptedMemory → EStateM ε ScriptedMemory α) :
    EStateM.bind EStateM.get next m = next m m := rfl

theorem permit_eq (h : m.Willing) (call : PagingCall) : permit call m = .ok () m := by
  unfold permit
  refine (get_bind _).trans ?_
  cases hlookup : m.failing.lookup call with
  | none => rfl
  | some times =>
    cases times with
    | zero => rfl
    | succ times => exact absurd hlookup (h call times)

theorem permit_bind {α : Type} (h : m.Willing) (call : PagingCall)
    (next : Unit → EStateM PagerError ScriptedMemory α) : (permit call >>= next) m = next () m := by
  show EStateM.bind (permit call) next m = _
  unfold EStateM.bind
  rw [permit_eq h]

theorem adapt_permit_bind {α : Type} (h : m.Willing) (call : PagingCall)
    (next : Unit → EStateM Failure ScriptedMemory α) :
    ((permit call).adaptExcept Failure.error >>= next) m = next () m := by
  show EStateM.bind ((permit call).adaptExcept Failure.error) next m = _
  unfold EStateM.bind EStateM.adaptExcept
  rw [permit_eq h]

/-- The memory with other pages. -/
def withTable (m : ScriptedMemory) (table : PageTable) : ScriptedMemory := { m with table }

theorem Willing.withTable (h : m.Willing) (table : PageTable) : (m.withTable table).Willing := h

theorem called_register (h : m.Willing)
    (hcall : Called (Paging.register start len) m result m') : result = .ok () ∧ m' = m := by
  have heq : (Paging.register start len : EStateM PagerError ScriptedMemory Unit) m = .ok () m :=
    permit_eq h .register
  unfold Called at hcall
  rwa [heq] at hcall

theorem called_unregister (h : m.Willing)
    (hcall : Called (Paging.unregister start len) m result m') : result = .ok () ∧ m' = m := by
  have heq : (Paging.unregister start len : EStateM PagerError ScriptedMemory Unit) m = .ok () m :=
    permit_eq h .unregister
  unfold Called at hcall
  rwa [heq] at hcall

theorem called_discard (h : m.Willing)
    (hcall : Called (Paging.discard start len) m result m') :
    result = .ok () ∧ m' = m.withTable (m.table.dropRange start len) := by
  have heq : (Paging.discard start len : EStateM PagerError ScriptedMemory Unit) m =
      .ok () (m.withTable (m.table.dropRange start len)) := permit_bind h .discard _
  unfold Called at hcall
  rwa [heq] at hcall

theorem called_release (h : m.Willing)
    (hcall : Called (Paging.release start len) m result m') :
    result = .ok () ∧ m' = m.withTable (m.table.dropRange start len) := by
  have heq : (Paging.release start len : EStateM PagerError ScriptedMemory Unit) m =
      .ok () (m.withTable (m.table.dropRange start len)) := permit_bind h .release _
  unfold Called at hcall
  rwa [heq] at hcall

/-- The pages that content is installed as. -/
def installed (m : ScriptedMemory) (start : Nat) (content : Bytes) : PageTable :=
  m.table.setAll
    (cutPages m.pageSize ((content.length + m.pageSize - 1) / m.pageSize) start content)

theorem map_fst_cut (m : ScriptedMemory) (start : Nat) (content : Bytes) :
    (cutPages m.pageSize ((content.length + m.pageSize - 1) / m.pageSize) start content).map (·.1) =
      pagesIn m.pageSize start content.length := fst_cutPages ..

/-- Whole pages of content are installed in the pages of their range. -/
theorem contains_installed {content : Bytes} {p : Nat} (hps : 0 < m.pageSize)
    (hlen : m.pageSize ∣ content.length) : (m.installed start content).contains p ↔
      (start ≤ p ∧ p < start + content.length ∧ p % m.pageSize = start % m.pageSize) ∨
        m.table.contains p := by
  unfold installed
  rw [PageTable.contains_setAll, map_fst_cut, mem_pagesIn hps hlen]

/-- Content is installed unless the first page has some. -/
theorem called_install (h : m.Willing) {content : Bytes} {installed : Except PagerError Bool}
    (hcall : Called (Paging.install start content) m installed m') :
    (m.table.contains start = true ∧ installed = .ok false ∧ m' = m) ∨
      (m.table.contains start = false ∧ installed = .ok true ∧
        m' = m.withTable (m.installed start content)) := by
  have heq : (Paging.install start content : EStateM PagerError ScriptedMemory Bool) m =
      if m.table.contains start then .ok false m
      else .ok true (m.withTable (m.installed start content)) := by
    refine (permit_bind h .install _).trans ((get_bind _).trans ?_)
    cases m.table.contains start <;> rfl
  unfold Called at hcall
  rw [heq] at hcall
  cases hpresent : m.table.contains start with
  | true =>
    rw [hpresent, if_pos rfl] at hcall
    exact .inl ⟨rfl, hcall⟩
  | false =>
    rw [hpresent, if_neg Bool.false_ne_true] at hcall
    exact .inr ⟨rfl, hcall⟩

/-- A read changes nothing and answers what is there. -/
theorem called_readResident (h : m.Willing) {read : Except PagerError Bytes}
    (hcall : Called (Paging.readResident start len) m read m') :
    m' = m ∧ ((∃ bytes, read = .ok bytes ∧ m.table.read m.pageSize start len = .ok bytes) ∨
      ∃ x, read = .error (.unknownAddress x) ∧
        m.table.read m.pageSize start len = .error x) := by
  unfold Called at hcall
  cases hread : m.table.read m.pageSize start len with
  | ok bytes =>
    have heq : (Paging.readResident start len : EStateM PagerError ScriptedMemory Bytes) m =
        .ok bytes m := by
      refine (permit_bind h .readResident _).trans ((get_bind _).trans ?_)
      simp only [hread]
      rfl
    rw [heq] at hcall
    exact ⟨hcall.2, .inl ⟨bytes, hcall.1, rfl⟩⟩
  | error x =>
    have heq : (Paging.readResident start len : EStateM PagerError ScriptedMemory Bytes) m =
        .error (.unknownAddress x) m := by
      refine (permit_bind h .readResident _).trans ((get_bind _).trans ?_)
      simp only [hread]
      rfl
    rw [heq] at hcall
    exact ⟨hcall.2, .inr ⟨x, hcall.1, rfl⟩⟩

/-- A reservation begins where it is to begin, and leaves the pages alone. -/
theorem called_reserve (h : m.Willing) {headerLen : Nat} {writable : Bool}
    {reserved : Except PagerError Nat}
    (hcall : CalledBreakable (Paging.reserve len headerLen writable) m reserved m') :
    reserved = .ok m.nextStart ∧ m'.table = m.table ∧ m'.pageSize = m.pageSize ∧
      m'.Willing := by
  unfold CalledBreakable at hcall
  unfold nextStart
  cases hdetour : m.detour with
  | some start =>
    have heq : (Paging.reserve len headerLen writable : EStateM Failure ScriptedMemory Nat) m =
        .ok start { m with detour := none } := by
      refine (adapt_permit_bind h .reserve _).trans ((get_bind _).trans ?_)
      simp only [hdetour]
      rfl
    rw [heq] at hcall
    obtain ⟨rfl, rfl⟩ := hcall
    exact ⟨rfl, rfl, rfl, h⟩
  | none =>
    have heq : (Paging.reserve len headerLen writable : EStateM Failure ScriptedMemory Nat) m =
        if wordBound ≤ m.next + len + m.pageSize then .error (.abort .overflow) m
        else .ok m.next { m with next := m.next + len + m.pageSize } := by
      refine (adapt_permit_bind h .reserve _).trans ((get_bind _).trans ?_)
      simp only [hdetour]
      by_cases hlarge : wordBound ≤ m.next + len + m.pageSize
      · simp only [hlarge]
        rfl
      · simp only [hlarge]
        rfl
    rw [heq] at hcall
    by_cases hlarge : wordBound ≤ m.next + len + m.pageSize
    · rw [if_pos hlarge] at hcall
      exact hcall.elim
    · rw [if_neg hlarge] at hcall
      obtain ⟨rfl, rfl⟩ := hcall
      exact ⟨rfl, rfl, rfl, h⟩

/-- The pages that a range of zeros is. -/
def zeroed (m : ScriptedMemory) (start len : Nat) : PageTable :=
  m.table.setAll ((pagesIn m.pageSize start len).map (·, Bytes.zeros m.pageSize))

theorem map_fst_zeros (m : ScriptedMemory) (start len : Nat) :
    ((pagesIn m.pageSize start len).map (·, Bytes.zeros m.pageSize)).map (·.1) =
      pagesIn m.pageSize start len := by
  rw [List.map_map]
  exact List.map_id _

theorem contains_zeroed {p : Nat} (hps : 0 < m.pageSize) (hlen : m.pageSize ∣ len) :
    (m.zeroed start len).contains p ↔
      (start ≤ p ∧ p < start + len ∧ p % m.pageSize = start % m.pageSize) ∨
        m.table.contains p := by
  unfold zeroed
  rw [PageTable.contains_setAll, map_fst_zeros, mem_pagesIn hps hlen]

/-- Zeros are filled in page by page. -/
theorem called_zero (h : m.Willing)
    (hcall : CalledBreakable (Paging.zero start len) m result m') :
    result = .ok () ∧ m' = m.withTable (m.zeroed start len) := by
  have heq : (Paging.zero start len : EStateM Failure ScriptedMemory Unit) m =
      if wordBound ≤ start + len then .error (.abort .overflow) m
      else .ok () (m.withTable (m.zeroed start len)) := by
    refine (adapt_permit_bind h .zero _).trans ?_
    by_cases hlarge : wordBound ≤ start + len <;> simp only [hlarge] <;> rfl
  unfold CalledBreakable at hcall
  rw [heq] at hcall
  by_cases hlarge : wordBound ≤ start + len
  · rw [if_pos hlarge] at hcall
    exact hcall.elim
  · rw [if_neg hlarge] at hcall
    exact hcall

/-! ### Calls that may be refused -/

/-- The pages are those that were there. -/
structure Same (m m' : ScriptedMemory) : Prop where
  pageSize : m'.pageSize = m.pageSize
  table : m'.table = m.table

/-- To be refused changes nothing but what is to be refused next. -/
theorem permit_cases (call : PagingCall) (m : ScriptedMemory) :
    permit call m = .ok () m ∨ ∃ cause m', permit call m = .error cause m' ∧ m.Same m' := by
  unfold permit
  show EStateM.bind EStateM.get _ m = _ ∨
    ∃ cause m', EStateM.bind EStateM.get _ m = .error cause m' ∧ m.Same m'
  rw [get_bind]
  cases m.failing.lookup call with
  | none => exact .inl rfl
  | some times =>
    cases times with
    | zero => exact .inl rfl
    | succ times => exact .inr ⟨_, _, rfl, rfl, rfl⟩

theorem permit_bind_cases {α : Type} (call : PagingCall)
    (next : Unit → EStateM PagerError ScriptedMemory α) (m : ScriptedMemory) :
    (permit call >>= next) m = next () m ∨
      ∃ cause m', (permit call >>= next) m = .error cause m' ∧ m.Same m' := by
  show EStateM.bind (permit call) next m = _ ∨
    ∃ cause m', EStateM.bind (permit call) next m = .error cause m' ∧ m.Same m'
  unfold EStateM.bind
  rcases permit_cases call m with heq | ⟨cause, m', heq, hsame⟩
  · rw [heq]
    exact .inl rfl
  · rw [heq]
    exact .inr ⟨cause, m', rfl, hsame⟩

theorem adapt_permit_bind_cases {α : Type} (call : PagingCall)
    (next : Unit → EStateM Failure ScriptedMemory α) (m : ScriptedMemory) :
    ((permit call).adaptExcept Failure.error >>= next) m = next () m ∨
      ∃ cause m', ((permit call).adaptExcept Failure.error >>= next) m =
        .error (.error cause) m' ∧ m.Same m' := by
  show EStateM.bind ((permit call).adaptExcept Failure.error) next m = _ ∨
    ∃ cause m', EStateM.bind ((permit call).adaptExcept Failure.error) next m =
      .error (.error cause) m' ∧ m.Same m'
  unfold EStateM.bind EStateM.adaptExcept
  rcases permit_cases call m with heq | ⟨cause, m', heq, hsame⟩
  · rw [heq]
    exact .inl rfl
  · rw [heq]
    exact .inr ⟨cause, m', rfl, hsame⟩

end ScriptedMemory
end DemandPager
