/-
# The book of a poller

A poller notes what the host watches for it a second time. The host knows a descriptor by its
number; the poller adds and removes by descriptors but forgets by tokens, and several descriptors
may have one token. Still the two records agree after any calls (`Poller.Mirrors`): the host
refuses what would make the poller note a descriptor twice, and a call that the host refuses
leaves the notes.

So to forget a token cannot fail. It removes the descriptors that were noted when it began, each of
them once, and while it removes one the others stay watched (`Poller.removeAll_ok`).

The host is not given here. What is proved holds of every host that is level triggered.

Key definitions: `Poller.Mirrors`, `Poller.Alike`, `Poller.ready`, `Poller.Call`, `Poller.run`.
Key theorems: `Poller.removeAll_ok`, `Poller.forget_ok`, `Poller.wait_brings`, `Poller.run_mirrors`,
`Poller.run_unreported`, `Poller.book_mirrors`.
-/
import Mathlib.Data.List.Perm.Subperm
import DemandPager.Proofs.Watching

namespace DemandPager
namespace Poller

variable {κ : Type} [Watching κ] {limit : Nat} {m : Watching.LevelTriggered κ limit}
  {p p' : Poller κ} {fd t : Nat} {cause : PagerError}

/-! ### The two records -/

/-- The poller has noted what the host watches, each descriptor once. -/
structure Mirrors (m : Watching.LevelTriggered κ limit) (p : Poller κ) : Prop where
  sound : m.Sound p.host
  events : p.events = limit
  book : ∀ {t fd : Nat}, (t, fd) ∈ p.watched ↔ m.token p.host fd = some t
  once : (p.watched.map (·.2)).Nodup

/-- The poller has noted the same, the host watches the same, and the same can be read. -/
structure Alike (m : Watching.LevelTriggered κ limit) (p p' : Poller κ) : Prop where
  watched : p'.watched = p.watched
  events : p'.events = p.events
  token : m.token p'.host = m.token p.host
  readable : m.readable p'.host = m.readable p.host

/-- The watched descriptors from which something can be read. -/
def ready (m : Watching.LevelTriggered κ limit) (p : Poller κ) : List Nat :=
  (p.watched.map (·.2)).filter (m.readable p.host)

namespace Mirrors

/-- The descriptors that are noted are those that the host watches. -/
theorem mem_fds (h : Mirrors m p) : fd ∈ p.watched.map (·.2) ↔ m.token p.host fd ≠ none := by
  rw [Option.ne_none_iff_exists']
  constructor
  · intro hfd
    obtain ⟨⟨t, g⟩, hmem, rfl⟩ := List.mem_map.mp hfd
    exact ⟨t, h.book.mp hmem⟩
  · rintro ⟨t, ht⟩
    exact List.mem_map.mpr ⟨(t, fd), h.book.mpr ht, rfl⟩

theorem mem_ready (h : Mirrors m p) :
    fd ∈ p.ready m ↔ m.token p.host fd ≠ none ∧ m.readable p.host fd = true := by
  unfold ready
  rw [List.mem_filter, h.mem_fds]

theorem nodup_ready (h : Mirrors m p) : (p.ready m).Nodup := h.once.filter _

/-- A host that watches the same may be in another state. -/
theorem withHost (h : Mirrors m p) {host : κ} (hsound : m.Sound host)
    (htoken : m.token host = m.token p.host) : Mirrors m { p with host } where
  sound := hsound
  events := h.events
  book {t fd} := by rw [htoken]; exact h.book
  once := h.once

/-- A poller that was made for a host that watches nothing. -/
theorem ofCapacity {host : κ} {capacity : Nat} (hcapacity : max capacity 1 = limit)
    (hsound : m.Sound host) (hidle : ∀ fd, m.token host fd = none) :
    Mirrors m (ofCapacity host capacity) :=
  ⟨hsound, hcapacity, fun {t fd} => by simp [Poller.ofCapacity, hidle fd], List.nodup_nil⟩

end Mirrors

/-! ### Adding and removing -/

theorem add_eq : add fd t p = match Watching.add fd t p.host with
    | .ok _ host => .ok () { p with host, watched := p.watched ++ [(t, fd)] }
    | .error cause host => .error cause { p with host } := by
  show EStateM.bind (onHost (Watching.add fd t)) _ p = _
  unfold EStateM.bind onHost
  cases Watching.add fd t p.host <;> rfl

theorem remove_eq : remove fd p = match Watching.remove fd p.host with
    | .ok _ host => .ok () { p with host, watched := p.watched.filter (·.2 != fd) }
    | .error cause host => .error cause { p with host } := by
  show EStateM.bind (onHost (Watching.remove fd)) _ p = _
  unfold EStateM.bind onHost
  cases Watching.remove fd p.host <;> rfl

/-- What is added was not watched, and is noted behind the others. -/
theorem add_ok (hp : Mirrors m p) (h : add fd t p = .ok () p') :
    Mirrors m p' ∧ m.token p.host fd = none ∧ p'.watched = p.watched ++ [(t, fd)] ∧
      m.readable p'.host = m.readable p.host := by
  rw [add_eq] at h
  cases hcall : Watching.add fd t p.host with
  | error cause host => simp [hcall] at h
  | ok a host =>
    rw [hcall] at h
    cases h
    obtain ⟨hfree, hsound, htoken, hreadable⟩ := m.added hp.sound hcall
    have hnew : fd ∉ p.watched.map (·.2) := fun hmem => hp.mem_fds.mp hmem hfree
    refine ⟨⟨hsound, hp.events, fun {u g} => ?_, ?_⟩, hfree, rfl, hreadable⟩
    · show (u, g) ∈ p.watched ++ [(t, fd)] ↔ m.token host g = some u
      rw [htoken, List.mem_append, hp.book, List.mem_singleton, Prod.mk.injEq]
      by_cases hg : g = fd
      · subst hg
        simp [hfree, eq_comm]
      · simp [hg]
    · show ((p.watched ++ [(t, fd)]).map (·.2)).Nodup
      rw [List.map_append]
      exact List.nodup_append_comm.mp (List.nodup_cons.mpr ⟨hnew, hp.once⟩)

/-- What could not be added leaves both records. -/
theorem add_error (hp : Mirrors m p) (h : add fd t p = .error cause p') :
    Mirrors m p' ∧ Alike m p p' := by
  rw [add_eq] at h
  cases hcall : Watching.add fd t p.host with
  | ok a host => simp [hcall] at h
  | error cause host =>
    rw [hcall] at h
    cases h
    obtain ⟨hsound, htoken, hreadable⟩ := m.notAdded hp.sound hcall
    exact ⟨hp.withHost hsound htoken, rfl, rfl, htoken, hreadable⟩

/-- What is removed was watched, and is struck out. -/
theorem remove_ok (hp : Mirrors m p) (h : remove fd p = .ok () p') :
    Mirrors m p' ∧ m.token p.host fd ≠ none ∧ p'.watched = p.watched.filter (·.2 != fd) ∧
      m.readable p'.host = m.readable p.host := by
  rw [remove_eq] at h
  cases hcall : Watching.remove fd p.host with
  | error cause host => simp [hcall] at h
  | ok a host =>
    rw [hcall] at h
    cases h
    obtain ⟨hwatched, hsound, htoken, hreadable⟩ := m.removed hp.sound hcall
    refine ⟨⟨hsound, hp.events, fun {u g} => ?_, ?_⟩, hwatched, rfl, hreadable⟩
    · show (u, g) ∈ p.watched.filter (·.2 != fd) ↔ m.token host g = some u
      rw [htoken, List.mem_filter, hp.book]
      by_cases hg : g = fd <;> simp [hg]
    · exact hp.once.sublist (List.filter_sublist.map _)

/-- What could not be removed was not watched, and both records are left. -/
theorem remove_error (hp : Mirrors m p) (h : remove fd p = .error cause p') :
    Mirrors m p' ∧ m.token p.host fd = none ∧ Alike m p p' := by
  rw [remove_eq] at h
  cases hcall : Watching.remove fd p.host with
  | ok a host => simp [hcall] at h
  | error cause host =>
    rw [hcall] at h
    cases h
    obtain ⟨hfree, hsound, htoken, hreadable⟩ := m.notRemoved hp.sound hcall
    exact ⟨hp.withHost hsound htoken, hfree, rfl, rfl, htoken, hreadable⟩

/-- What the host takes is noted. -/
theorem add_of_taken {host : κ} (h : Watching.add fd t p.host = .ok () host) :
    ∃ p', add fd t p = .ok () p' ∧ p'.watched = p.watched ++ [(t, fd)] := by
  rw [add_eq, h]
  exact ⟨_, rfl, rfl⟩

/-- **A descriptor can be removed exactly if it is noted.** -/
theorem remove_ok_iff (hp : Mirrors m p) :
    (∃ p', remove fd p = .ok () p') ↔ fd ∈ p.watched.map (·.2) := by
  rw [hp.mem_fds]
  constructor
  · rintro ⟨p', h⟩
    exact (remove_ok hp h).2.1
  · intro hwatched
    cases hremove : remove fd p with
    | ok a p' => exact ⟨p', rfl⟩
    | error cause p' => exact absurd (remove_error hp hremove).2.1 hwatched

/-! ### Forgetting -/

/-- **Descriptors that are watched can be removed one after the other**, if each of them is named
once. -/
theorem removeAll_ok : ∀ {fds : List Nat} {p : Poller κ}, Mirrors m p → fds.Nodup →
    (∀ fd ∈ fds, fd ∈ p.watched.map (·.2)) →
    ∃ p', removeAll fds p = .ok () p' ∧ Mirrors m p' ∧
      p'.watched = p.watched.filter (fun e => !fds.contains e.2) ∧
      m.readable p'.host = m.readable p.host
  | [], p, hp, _, _ => ⟨p, rfl, hp, by simp, rfl⟩
  | fd :: fds, p, hp, hnodup, hwatched => by
    obtain ⟨hfd, hrest⟩ := List.nodup_cons.mp hnodup
    obtain ⟨v, hremove⟩ := (remove_ok_iff hp).mpr (hwatched fd (List.mem_cons_self ..))
    obtain ⟨hv, -, hbook, hreadable⟩ := remove_ok hp hremove
    -- the others are still watched
    have hstill : ∀ g ∈ fds, g ∈ v.watched.map (·.2) := by
      intro g hg
      have hne : g ≠ fd := fun heq => hfd (heq ▸ hg)
      obtain ⟨e, he, rfl⟩ := List.mem_map.mp (hwatched g (List.mem_cons_of_mem _ hg))
      rw [hbook]
      exact List.mem_map.mpr ⟨e, List.mem_filter.mpr ⟨he, by simpa using hne⟩, rfl⟩
    obtain ⟨p', hall, hp', hbook', hreadable'⟩ := removeAll_ok hv hrest hstill
    refine ⟨p', ?_, hp', ?_, hreadable'.trans hreadable⟩
    · show EStateM.bind (remove fd) _ p = _
      unfold EStateM.bind
      rw [hremove]
      exact hall
    · rw [hbook', hbook, List.filter_filter]
      refine List.filter_congr fun e _ => ?_
      by_cases he : e.2 = fd <;> simp [he, hfd]

/-- **To forget a token never fails.** Its descriptors go, and the others stay as they are. -/
theorem forget_ok (hp : Mirrors m p) (t : Nat) :
    ∃ p', forget t p = .ok () p' ∧ Mirrors m p' ∧ p'.watched = p.watched.filter (·.1 != t) ∧
      m.readable p'.host = m.readable p.host := by
  set fds := (p.watched.filter (·.1 == t)).map (·.2)
  have hmem : ∀ fd, fd ∈ fds ↔ m.token p.host fd = some t := by
    intro fd
    constructor
    · intro hfd
      obtain ⟨⟨u, g⟩, he, rfl⟩ := List.mem_map.mp hfd
      obtain ⟨hin, hu⟩ := List.mem_filter.mp he
      rw [← eq_of_beq hu]
      exact hp.book.mp hin
    · intro hfd
      exact List.mem_map.mpr
        ⟨(t, fd), List.mem_filter.mpr ⟨hp.book.mpr hfd, beq_self_eq_true t⟩, rfl⟩
  have hnodup : fds.Nodup := hp.once.sublist (List.filter_sublist.map _)
  have hwatched : ∀ fd ∈ fds, fd ∈ p.watched.map (·.2) := (List.filter_sublist.map _).subset
  obtain ⟨p', hall, hp', hbook, hreadable⟩ := removeAll_ok hp hnodup hwatched
  refine ⟨p', hall, hp', ?_, hreadable⟩
  rw [hbook]
  refine List.filter_congr fun e he => ?_
  -- a descriptor that is noted has one token
  have htoken : m.token p.host e.2 = some e.1 := hp.book.mp he
  have hin : e.2 ∈ fds ↔ e.1 = t := by rw [hmem, htoken, Option.some.injEq]
  by_cases h : e.1 = t <;> simp [hin, h]

/-! ### Waiting -/

theorem signedHalf_eq {n : Nat} (h : n < halfWordBound / 2) : signedHalf n = n := by
  unfold signedHalf
  rw [Int.bmod_def]
  unfold halfWordBound at *
  omega

section Waits

variable {timeout : Nat} {buffer tokens : List Nat} {host : κ}

theorem wait_of_ok (hcall : Watching.wait (signedHalf p.events) (min timeout longestWait) p.host =
      .ok tokens host) :
    wait timeout buffer p =
      (.ok (if tokens = [] then .timedOut else .ready tokens.length), tokens, { p with host }) := by
  unfold wait onHost
  rw [hcall, List.take_zero]
  cases tokens <;> rfl

theorem wait_of_error
    (hcall : Watching.wait (signedHalf p.events) (min timeout longestWait) p.host =
      .error cause host) :
    wait timeout buffer p =
      (if cause = .ofCode Errno.interrupted then .ok .interrupted else .error cause, [],
        { p with host }) := by
  unfold wait onHost
  rw [hcall, List.take_zero]

/-- What is reported is all that is ready, or as much as can be reported. -/
theorem Mirrors.length_reported (hp : Mirrors m p) {fds : List Nat} (hnodup : fds.Nodup)
    (hsub : fds ⊆ p.ready m) (hlength : fds.length ≤ limit)
    (hall : fds.length < limit → p.ready m ⊆ fds) : fds.length = min limit (p.ready m).length := by
  have hle := (List.subperm_of_subset hnodup hsub).length_le
  by_cases hfull : fds.length < limit
  · have hge := (List.subperm_of_subset hp.nodup_ready (hall hfull)).length_le
    omega
  · omega

end Waits

/-- **What a wait brings.** The tokens are those of different descriptors that are watched and
readable, as many as there are and the events can note. What was in the buffer is gone, and a wait
does not fail. -/
theorem wait_brings (hp : Mirrors m p) (hlimit : limit < halfWordBound / 2) (timeout : Nat)
    (buffer : List Nat) :
    ∃ readiness tokens p', wait timeout buffer p = (.ok readiness, tokens, p') ∧ Mirrors m p' ∧
      Alike m p p' ∧ tokens.length = min limit (p.ready m).length ∧
      (∃ fds, fds.Nodup ∧ fds ⊆ p.ready m ∧ fds.map (m.token p.host) = tokens.map some) ∧
      (readiness = .ready tokens.length ↔ tokens ≠ []) := by
  have hevents : signedHalf p.events = limit := by rw [hp.events, signedHalf_eq hlimit]
  cases hcall : Watching.wait (signedHalf p.events) (min timeout longestWait) p.host with
  | error cause host =>
    obtain ⟨rfl, hnothing, hsound, htoken, hreadable⟩ := m.notWaited hp.sound (hevents ▸ hcall)
    have hready : p.ready m = [] := List.eq_nil_iff_forall_not_mem.mpr fun fd hfd => by
      obtain ⟨hwatched, hreads⟩ := hp.mem_ready.mp hfd
      simp [hnothing fd hwatched] at hreads
    exact ⟨.interrupted, [], _, wait_of_error hcall, hp.withHost hsound htoken,
      ⟨rfl, rfl, htoken, hreadable⟩, by simp [hready],
      ⟨[], List.nodup_nil, List.nil_subset _, rfl⟩, by simp⟩
  | ok tokens host =>
    obtain ⟨⟨fds, hnodup, htokens, hreads, hall⟩, hlength, hsound, htoken, hreadable⟩ :=
      m.waited hp.sound (hevents ▸ hcall)
    have hsame : fds.length = tokens.length := by
      have := congrArg List.length htokens
      rwa [List.length_map, List.length_map] at this
    have hsub : fds ⊆ p.ready m := fun fd hfd => by
      obtain ⟨t, -, ht⟩ := List.mem_map.mp (htokens ▸ List.mem_map_of_mem hfd)
      exact hp.mem_ready.mpr ⟨by simp [← ht], hreads fd hfd⟩
    have hcount : fds.length = min limit (p.ready m).length := by
      refine hp.length_reported hnodup hsub (hsame ▸ hlength) fun hfew fd hfd => ?_
      obtain ⟨hwatched, hr⟩ := hp.mem_ready.mp hfd
      exact hall (hsame ▸ hfew) fd hwatched hr
    refine ⟨_, tokens, _, wait_of_ok hcall, hp.withHost hsound htoken,
      ⟨rfl, rfl, htoken, hreadable⟩, hsame ▸ hcount, ⟨fds, hnodup, hsub, htokens⟩, ?_⟩
    by_cases hnone : tokens = [] <;> simp [hnone]

/-! ### Any calls -/

/-- A call of a poller, or of a counter that it may watch. -/
inductive Call
  | add (fd token : Nat)
  | remove (fd : Nat)
  | forget (token : Nat)
  | notify (fd : Nat)
  | drain (fd : Nat)
  | wait (timeout : Nat) (buffer : List Nat)

/-- A call that was made, with its result. -/
inductive Entry
  | add (fd token : Nat) (result : Except PagerError Unit)
  | remove (fd : Nat) (result : Except PagerError Unit)
  | forget (token : Nat) (result : Except PagerError Unit)
  | notify (fd : Nat)
  | drain (fd taken : Nat)
  /-- The tokens are those that are in the buffer afterwards. -/
  | wait (result : Except PagerError Readiness) (tokens : List Nat)

/-- The result of a call that can fail, and the poller after it. -/
def settled (call : EStateM PagerError (Poller κ) Unit) (p : Poller κ) :
    Except PagerError Unit × Poller κ :=
  match call p with
  | .ok _ p => (.ok (), p)
  | .error cause p => (.error cause, p)

/-- Makes a call. -/
def perform (p : Poller κ) : Call → Entry × Poller κ
  | .add fd token => (settled (add fd token) p).map (.add fd token) id
  | .remove fd => (settled (remove fd) p).map (.remove fd) id
  | .forget token => (settled (forget token) p).map (.forget token) id
  | .notify fd => (.notify fd, p.notify fd)
  | .drain fd => (p.drain fd).map (.drain fd) id
  | .wait timeout buffer =>
    let (result, tokens, p) := p.wait timeout buffer
    (.wait result tokens, p)

/-- Makes calls one after the other. -/
def run (p : Poller κ) : List Call → List Entry × Poller κ
  | [] => ([], p)
  | call :: calls =>
    let (entry, p) := p.perform call
    let (entries, p) := run p calls
    (entry :: entries, p)

/-- What can be read after a call, if it was `readable` before. -/
def Call.leaves (readable : Nat → Bool) : Call → Nat → Bool
  | .notify fd => Function.update readable fd true
  | .drain fd => Function.update readable fd false
  | _ => readable

omit [Watching κ] in
theorem settled_ok {call : EStateM PagerError (Poller κ) Unit} (h : call p = .ok () p') :
    settled call p = (.ok (), p') := by
  unfold settled
  rw [h]

omit [Watching κ] in
theorem settled_error {call : EStateM PagerError (Poller κ) Unit} (h : call p = .error cause p') :
    settled call p = (.error cause, p') := by
  unfold settled
  rw [h]

/-- What a call does to a poller whose notes agree with the host. -/
inductive Does (m : Watching.LevelTriggered κ limit) (p p' : Poller κ) : Call → Entry → Prop
  | added {fd t : Nat} (hbook : p'.watched = p.watched ++ [(t, fd)])
      (hreadable : m.readable p'.host = m.readable p.host) :
      Does m p p' (.add fd t) (.add fd t (.ok ()))
  | notAdded {fd t : Nat} {cause : PagerError} (h : Alike m p p') :
      Does m p p' (.add fd t) (.add fd t (.error cause))
  | removed {fd : Nat} (hbook : p'.watched = p.watched.filter (·.2 != fd))
      (hreadable : m.readable p'.host = m.readable p.host) :
      Does m p p' (.remove fd) (.remove fd (.ok ()))
  | notRemoved {fd : Nat} {cause : PagerError} (h : Alike m p p') :
      Does m p p' (.remove fd) (.remove fd (.error cause))
  | forgot {t : Nat} (hbook : p'.watched = p.watched.filter (·.1 != t))
      (hreadable : m.readable p'.host = m.readable p.host) :
      Does m p p' (.forget t) (.forget t (.ok ()))
  | notified {fd : Nat} (hbook : p'.watched = p.watched)
      (hreadable : m.readable p'.host = Function.update (m.readable p.host) fd true) :
      Does m p p' (.notify fd) (.notify fd)
  | drained {fd taken : Nat} (hbook : p'.watched = p.watched)
      (hreadable : m.readable p'.host = Function.update (m.readable p.host) fd false) :
      Does m p p' (.drain fd) (.drain fd taken)
  /-- Each token that is brought is that of a noted descriptor. -/
  | waited {timeout : Nat} {buffer tokens : List Nat} {readiness : Readiness} (h : Alike m p p')
      (htokens : ∀ t ∈ tokens, ∃ fd, (t, fd) ∈ p.watched) :
      Does m p p' (.wait timeout buffer) (.wait (.ok readiness) tokens)

/-- **One call** keeps the records in agreement. -/
theorem perform_does (hp : Mirrors m p) (hlimit : limit < halfWordBound / 2) (call : Call) :
    Mirrors m (p.perform call).2 ∧ Does m p (p.perform call).2 call (p.perform call).1 := by
  cases call with
  | add fd t =>
    cases hadd : add fd t p with
    | ok a v =>
      obtain ⟨hv, -, hbook, hreadable⟩ := add_ok hp hadd
      simp only [perform, settled_ok hadd]
      exact ⟨hv, .added hbook hreadable⟩
    | error cause v =>
      obtain ⟨hv, halike⟩ := add_error hp hadd
      simp only [perform, settled_error hadd]
      exact ⟨hv, .notAdded halike⟩
  | remove fd =>
    cases hremove : remove fd p with
    | ok a v =>
      obtain ⟨hv, -, hbook, hreadable⟩ := remove_ok hp hremove
      simp only [perform, settled_ok hremove]
      exact ⟨hv, .removed hbook hreadable⟩
    | error cause v =>
      obtain ⟨hv, -, halike⟩ := remove_error hp hremove
      simp only [perform, settled_error hremove]
      exact ⟨hv, .notRemoved halike⟩
  | forget t =>
    obtain ⟨v, hforget, hv, hbook, hreadable⟩ := forget_ok hp t
    simp only [perform, settled_ok hforget]
    exact ⟨hv, .forgot hbook hreadable⟩
  | notify fd =>
    obtain ⟨hsound, htoken, hreadable⟩ := m.notified fd hp.sound
    exact ⟨hp.withHost hsound htoken, .notified rfl hreadable⟩
  | drain fd =>
    obtain ⟨hsound, htoken, hreadable⟩ := m.drained fd hp.sound
    exact ⟨hp.withHost hsound htoken, .drained rfl hreadable⟩
  | wait timeout buffer =>
    obtain ⟨readiness, tokens, v, hwait, hv, halike, -, ⟨fds, -, -, htokens⟩, -⟩ :=
      wait_brings hp hlimit timeout buffer
    simp only [perform, hwait]
    refine ⟨hv, .waited halike fun t ht => ?_⟩
    obtain ⟨fd, -, hfd⟩ := List.mem_map.mp (htokens ▸ List.mem_map_of_mem ht)
    exact ⟨fd, hp.book.mpr hfd⟩

theorem Does.readable {call : Call} {entry : Entry} (h : Does m p p' call entry) :
    m.readable p'.host = call.leaves (m.readable p.host) := by
  cases h with
  | added _ h => exact h
  | notAdded h => exact h.readable
  | removed _ h => exact h
  | notRemoved h => exact h.readable
  | forgot _ h => exact h
  | notified _ h => exact h
  | drained _ h => exact h
  | waited h => exact h.readable

/-- **Any calls** keep the records in agreement, and tell what can be read: what was notified and
not drained since. -/
theorem run_mirrors (hlimit : limit < halfWordBound / 2) : ∀ (calls : List Call) {p : Poller κ},
    Mirrors m p → Mirrors m (p.run calls).2 ∧
      m.readable (p.run calls).2.host = calls.foldl Call.leaves (m.readable p.host)
  | [], _, hp => ⟨hp, rfl⟩
  | call :: calls, p, hp => by
    obtain ⟨hv, hdoes⟩ := perform_does hp hlimit call
    obtain ⟨hp', hreadable⟩ := run_mirrors hlimit calls hv
    rw [hdoes.readable] at hreadable
    exact ⟨hp', hreadable⟩

/-! ### Tokens that are not in use -/

/-- No descriptor is noted under the token. -/
def Unused (p : Poller κ) (t : Nat) : Prop := ∀ e ∈ p.watched, e.1 ≠ t

/-- A token that is not in use stays so, unless a descriptor is added under it, and no wait reports
it. -/
theorem Does.unused {call : Call} {entry : Entry} (h : Does m p p' call entry) (ht : p.Unused t)
    (hunadded : ∀ fd, entry ≠ .add fd t (.ok ())) :
    p'.Unused t ∧ ∀ result tokens, entry = .wait result tokens → t ∉ tokens := by
  have hkept : p'.watched = p.watched → p'.Unused t := fun h e he => ht e (h ▸ he)
  have hstruck : ∀ {keep : Nat × Nat → Bool}, p'.watched = p.watched.filter keep → p'.Unused t :=
    fun h e he => ht e (List.mem_of_mem_filter (h ▸ he))
  cases h with
  | @added fd u hbook =>
    refine ⟨fun e he => ?_, by simp⟩
    rcases List.mem_append.mp (hbook ▸ he) with hold | hnew
    · exact ht e hold
    · rw [List.mem_singleton.mp hnew]
      rintro rfl
      exact hunadded fd rfl
  | notAdded h => exact ⟨hkept h.watched, by simp⟩
  | removed hbook => exact ⟨hstruck hbook, by simp⟩
  | notRemoved h => exact ⟨hkept h.watched, by simp⟩
  | forgot hbook => exact ⟨hstruck hbook, by simp⟩
  | notified hbook => exact ⟨hkept hbook, by simp⟩
  | drained hbook => exact ⟨hkept hbook, by simp⟩
  | waited h htokens =>
    refine ⟨hkept h.watched, ?_⟩
    rintro result tokens ⟨⟩ hmem
    obtain ⟨fd, hfd⟩ := htokens t hmem
    exact ht (t, fd) hfd rfl

/-- **A token that is not in use is not reported**, until a descriptor is added under it. -/
theorem run_unreported (hlimit : limit < halfWordBound / 2) : ∀ (calls : List Call) {p : Poller κ},
    Mirrors m p → p.Unused t → (∀ fd, Entry.add fd t (.ok ()) ∉ (p.run calls).1) →
    ∀ result tokens, Entry.wait result tokens ∈ (p.run calls).1 → t ∉ tokens
  | [], _, _, _, _ => fun _ _ h => by cases h
  | call :: calls, p, hp, ht, hunadded => by
    obtain ⟨hv, hdoes⟩ := perform_does hp hlimit call
    have hfirst : ∀ fd, (p.perform call).1 ≠ .add fd t (.ok ()) := fun fd heq =>
      hunadded fd (List.mem_cons.mpr (.inl heq.symm))
    obtain ⟨hunused, hwaited⟩ := hdoes.unused ht hfirst
    have hrest := run_unreported hlimit calls hv hunused fun fd hmem =>
      hunadded fd (List.mem_cons_of_mem _ hmem)
    intro result tokens hmem
    rcases List.mem_cons.mp hmem with hnow | hlater
    · exact hwaited result tokens hnow.symm
    · exact hrest result tokens hlater

/-! ### The book -/

/-- **The book of a poller mirrors the host.** Let a poller be made, with events that can be
counted in a half word, for a host that is level triggered for so many events and watches nothing.
It can be made, and after any calls it has noted exactly what the host watches, each descriptor
once. Then

* what the host takes is noted, what is noted and nothing else can be removed, and what cannot be
  added or removed changes nothing;
* to forget a token does not fail, stops the watching of its descriptors and of no others, and from
  then on no wait reports the token until a descriptor is added under it again;
* a wait does not fail, and in the place of what was in the buffer brings the tokens of different
  descriptors that are watched and readable, as many as there are and the events can note.

What can be read is what was notified and not drained since. -/
theorem book_mirrors {capacity : Nat} (m : Watching.LevelTriggered κ (max capacity 1))
    (hcapacity : capacity < halfWordBound / 2) {host : κ} (hsound : m.Sound host)
    (hidle : ∀ fd, m.token host fd = none) (calls : List Call) :
    allocate host capacity = .ok (ofCapacity host capacity) ∧
    ∀ p, p = ((ofCapacity host capacity).run calls).2 →
      Mirrors m p ∧ m.readable p.host = calls.foldl Call.leaves (m.readable host) ∧
      (∀ fd t host, Watching.add fd t p.host = .ok () host →
        ∃ p', add fd t p = .ok () p' ∧ p'.watched = p.watched ++ [(t, fd)]) ∧
      (∀ fd, (∃ p', remove fd p = .ok () p') ↔ fd ∈ p.watched.map (·.2)) ∧
      (∀ fd t cause p', add fd t p = .error cause p' → Alike m p p') ∧
      (∀ fd cause p', remove fd p = .error cause p' → Alike m p p') ∧
      (∀ t, ∃ p', forget t p = .ok () p' ∧ p'.watched = p.watched.filter (·.1 != t) ∧
        (∀ fd, m.token p'.host fd =
          if m.token p.host fd = some t then none else m.token p.host fd) ∧
        m.readable p'.host = m.readable p.host ∧
        ∀ later, (∀ fd, Entry.add fd t (.ok ()) ∉ (p'.run later).1) →
          ∀ result tokens, Entry.wait result tokens ∈ (p'.run later).1 → t ∉ tokens) ∧
      ∀ timeout buffer, ∃ readiness tokens p', wait timeout buffer p = (.ok readiness, tokens, p') ∧
        Alike m p p' ∧ tokens.length = min (max capacity 1) (p.ready m).length ∧
        (∃ fds, fds.Nodup ∧ fds ⊆ p.ready m ∧ fds.map (m.token p.host) = tokens.map some) ∧
        (readiness = .ready tokens.length ↔ tokens ≠ []) := by
  have hlimit : max capacity 1 < halfWordBound / 2 := Nat.max_lt.mpr ⟨hcapacity, by decide⟩
  refine ⟨?_, ?_⟩
  · unfold allocate Word.isAllocatable eventBytes
    rw [if_pos]
    rw [decide_eq_true_eq]
    unfold halfWordBound wordBound at *
    omega
  rintro p rfl
  obtain ⟨hp, hreadable⟩ := run_mirrors hlimit calls (Mirrors.ofCapacity rfl hsound hidle)
  generalize ((ofCapacity host capacity).run calls).2 = p at hp hreadable ⊢
  refine ⟨hp, hreadable, fun fd t host => add_of_taken, fun fd => remove_ok_iff hp,
    fun fd t cause p' h => (add_error hp h).2, fun fd cause p' h => (remove_error hp h).2.2,
    fun t => ?_, fun timeout buffer => ?_⟩
  · obtain ⟨p', hforget, hp', hbook, hreadable'⟩ := forget_ok hp t
    have hunused : p'.Unused t := fun e he => by
      rw [hbook] at he
      simpa using (List.mem_filter.mp he).2
    refine ⟨p', hforget, hbook, fun fd => ?_, hreadable', fun later hunadded =>
      run_unreported hlimit later hp' hunused hunadded⟩
    have hkept : ∀ u, m.token p'.host fd = some u ↔ m.token p.host fd = some u ∧ u ≠ t := by
      intro u
      rw [← hp'.book, hbook, List.mem_filter, hp.book]
      simp
    refine Option.ext fun u => ?_
    rw [hkept]
    by_cases ht : m.token p.host fd = some t
    · simp [ht, eq_comm]
    · rw [if_neg ht]
      refine and_iff_left_of_imp fun hu => ?_
      rintro rfl
      exact ht hu
  · obtain ⟨readiness, tokens, p', hwait, -, halike, hcount, hfds, hready⟩ :=
      wait_brings hp hlimit timeout buffer
    exact ⟨readiness, tokens, p', hwait, halike, hcount, hfds, hready⟩

/-- A poller whose waits note one event watches three counters, two of them under one token; one
of them cannot be watched again. All are notified. A wait brings one token; when the token of the
two is forgotten, only the third counter is watched. -/
theorem book_mirrors_sample :
    let m := EventHost.levelTriggered 1 (by decide) (by decide)
    let calls : List Call :=
      [.add 5 7, .add 6 7, .add 8 9, .add 5 9, .notify 5, .notify 6, .notify 8]
    let p := ((ofCapacity ({} : EventHost) 1).run calls).2
    (1 < halfWordBound / 2 ∧ m.Sound {} ∧ ∀ fd, m.token {} fd = none) ∧
      (∃ p', forget 7 p = .ok () p' ∧ p'.watched = [(9, 8)]) ∧
      ∃ readiness tokens p', wait 0 [1, 2, 3] p = (.ok readiness, tokens, p') ∧
        tokens.length = 1 := by
  intro m calls p
  have hsound : m.Sound {} := ⟨List.nodup_nil, fun fd h => (by cases h), fun fd h => absurd rfl h⟩
  have hidle : ∀ fd, m.token {} fd = none := fun fd => rfl
  have hcapacity : 1 < halfWordBound / 2 := by decide
  obtain ⟨-, hafter⟩ := book_mirrors m hcapacity hsound hidle calls
  obtain ⟨-, -, -, -, -, -, hforget, hwait⟩ := hafter p rfl
  have hwatched : p.watched = [(7, 5), (7, 6), (9, 8)] := by decide
  obtain ⟨p', hdone, hbook, -⟩ := hforget 7
  obtain ⟨readiness, tokens, p'', hbrought, -, hcount, -⟩ := hwait 0 [1, 2, 3]
  have hready : p.ready m = [5, 6, 8] := by decide
  rw [hready] at hcount
  exact ⟨⟨hcapacity, hsound, hidle⟩, ⟨p', hdone, by rw [hbook, hwatched]; decide⟩,
    readiness, tokens, p'', hbrought, hcount⟩

end Poller
end DemandPager
