/-
# Hosts that are level triggered

What a poller may rely on. A host knows under which token a descriptor is watched, and whether
something can be read from it. A descriptor is watched once at most: to watch it again fails, and so
does to stop watching one that is not watched. A wait reports distinct descriptors that are watched
and readable, as long as its events last, and it reports a descriptor as often as it is readable. A
wait fails only if a signal arrives while nothing can be reported.

The host with counters is level triggered, for each number of events that it bears
(`EventHost.levelTriggered`). Its queue holds every watched descriptor that is readable, so a wait
that has gone through the queue has seen them all.

Key definitions: `Watching.LevelTriggered`, `InterestSet.Sound`.
Key theorems: `InterestSet.collectFrom_spec`, `EventHost.levelTriggered`.
-/
import Mathlib.Data.List.Nodup
import Mathlib.Logic.Function.Basic
import DemandPager.Poller.Host

namespace DemandPager

/-! ### What hosts promise -/

namespace Watching

variable {κ : Type} [Watching κ]

/-- A host whose waits, with so many events, are level triggered. -/
structure LevelTriggered (κ : Type) [Watching κ] (limit : Nat) where
  /-- The token under which a descriptor is watched. -/
  token : κ → Nat → Option Nat
  /-- Whether something can be read from a descriptor. -/
  readable : κ → Nat → Bool
  /-- The states in which the host can be. -/
  Sound : κ → Prop
  added : ∀ {s s' : κ} {fd t : Nat}, Sound s → Watching.add fd t s = .ok () s' →
    token s fd = none ∧ Sound s' ∧ token s' = Function.update (token s) fd (some t) ∧
      readable s' = readable s
  notAdded : ∀ {s s' : κ} {fd t : Nat} {cause : PagerError}, Sound s →
    Watching.add fd t s = .error cause s' →
      Sound s' ∧ token s' = token s ∧ readable s' = readable s
  removed : ∀ {s s' : κ} {fd : Nat}, Sound s → Watching.remove fd s = .ok () s' →
    token s fd ≠ none ∧ Sound s' ∧ token s' = Function.update (token s) fd none ∧
      readable s' = readable s
  notRemoved : ∀ {s s' : κ} {fd : Nat} {cause : PagerError}, Sound s →
    Watching.remove fd s = .error cause s' →
      token s fd = none ∧ Sound s' ∧ token s' = token s ∧ readable s' = readable s
  /-- A wait reports descriptors that are watched and readable, and only if its events do not last
  it leaves one out. -/
  waited : ∀ {s s' : κ} {millis : Nat} {tokens : List Nat}, Sound s →
    Watching.wait limit millis s = .ok tokens s' →
      (∃ fds : List Nat, fds.Nodup ∧ fds.map (token s) = tokens.map some ∧
        (∀ fd ∈ fds, readable s fd = true) ∧
        (tokens.length < limit → ∀ fd, token s fd ≠ none → readable s fd = true → fd ∈ fds)) ∧
      tokens.length ≤ limit ∧ Sound s' ∧ token s' = token s ∧ readable s' = readable s
  /-- Only a signal makes a wait fail, and not if there is something to report. -/
  notWaited : ∀ {s s' : κ} {millis : Nat} {cause : PagerError}, Sound s →
    Watching.wait limit millis s = .error cause s' →
      cause = .ofCode Errno.interrupted ∧ (∀ fd, token s fd ≠ none → readable s fd = false) ∧
        Sound s' ∧ token s' = token s ∧ readable s' = readable s
  notified : ∀ {s : κ} (fd : Nat), Sound s →
    Sound (Watching.notify fd s) ∧ token (Watching.notify fd s) = token s ∧
      readable (Watching.notify fd s) = Function.update (readable s) fd true
  drained : ∀ {s : κ} (fd : Nat), Sound s →
    Sound (Watching.drain fd s).2 ∧ token (Watching.drain fd s).2 = token s ∧
      readable (Watching.drain fd s).2 = Function.update (readable s) fd false

end Watching

/-! ### The record of watched descriptors -/

namespace InterestSet

variable {s s' : InterestSet} {fd t : Nat} {readable readable' : Nat → Bool}

/-- The queue holds watched descriptors, each once, and all of those that are readable. -/
structure Sound (s : InterestSet) (readable : Nat → Bool) : Prop where
  nodup : s.signalled.Nodup
  watched : ∀ fd ∈ s.signalled, s.tokenOf? fd ≠ none
  noticed : ∀ fd, s.tokenOf? fd ≠ none → readable fd = true → fd ∈ s.signalled

theorem contains_iff : s.contains fd = true ↔ s.tokenOf? fd ≠ none := Option.isSome_iff_ne_none

theorem contains_eq_false_iff : s.contains fd = false ↔ s.tokenOf? fd = none := by
  rw [← Bool.not_eq_true, contains_iff, not_not]

@[simp]
theorem tokenOf?_signal : (s.signal fd).tokenOf? = s.tokenOf? := by
  unfold signal
  split <;> rfl

theorem mem_signalled_signal {g : Nat} :
    g ∈ (s.signal fd).signalled ↔ g ∈ s.signalled ∨ g = fd ∧ s.tokenOf? fd ≠ none := by
  unfold signal
  by_cases hwatched : s.tokenOf? fd = none
  · simp [contains_eq_false_iff.mpr hwatched, hwatched]
  · by_cases hmem : fd ∈ s.signalled
    · have hsame : g = fd → g ∈ s.signalled := fun h => h ▸ hmem
      simp [hmem]
      tauto
    · simp [contains_iff.mpr hwatched, hmem, hwatched]

/-- A descriptor whose readiness may have changed is signalled. -/
theorem Sound.signal (h : s.Sound readable) (hothers : ∀ g, g ≠ fd → readable' g = readable g) :
    (s.signal fd).Sound readable' := by
  refine ⟨?_, fun g hg => ?_, fun g hg hreadable => ?_⟩
  · unfold InterestSet.signal
    split
    next hnew =>
      have hfd : fd ∉ s.signalled := by simp_all
      simpa using List.nodup_middle.mpr (by simpa using ⟨hfd, h.nodup⟩)
    next => exact h.nodup
  · rw [tokenOf?_signal]
    rcases mem_signalled_signal.mp hg with hold | ⟨rfl, hwatched⟩
    · exact h.watched g hold
    · exact hwatched
  · rw [tokenOf?_signal] at hg
    rw [mem_signalled_signal]
    by_cases hgfd : g = fd
    · subst hgfd
      exact .inr ⟨rfl, hg⟩
    · exact .inl (h.noticed g hg (hothers g hgfd ▸ hreadable))

/-- A descriptor that cannot be read any more need not be noticed. -/
theorem Sound.mono (h : s.Sound readable) (hle : ∀ g, readable' g = true → readable g = true) :
    s.Sound readable' :=
  ⟨h.nodup, h.watched, fun g hg hreadable => h.noticed g hg (hle g hreadable)⟩

theorem tokenOf?_watch (hfd : s.tokenOf? fd = none) :
    ({ s with watched := s.watched ++ [(fd, t)] } : InterestSet).tokenOf? =
      Function.update s.tokenOf? fd (some t) := by
  funext g
  unfold tokenOf? at hfd ⊢
  rw [List.lookup_append]
  by_cases hg : g = fd
  · subst hg
    simp [hfd]
  · have hbeq : (g == fd) = false := beq_eq_false_iff_ne.mpr hg
    simp [List.lookup_cons, hbeq, hg]

/-- A descriptor that is watched from now on is in the queue if it is readable. -/
theorem add_eq_ok (h : s.Sound readable) (hadd : s.add fd t (readable fd) = .ok s') :
    s.tokenOf? fd = none ∧ s'.Sound readable ∧
      s'.tokenOf? = Function.update s.tokenOf? fd (some t) := by
  unfold add at hadd
  cases hcontains : s.contains fd with
  | true => simp [hcontains] at hadd
  | false =>
    have hfd := contains_eq_false_iff.mp hcontains
    rw [hcontains] at hadd
    set watching : InterestSet := { s with watched := s.watched ++ [(fd, t)] } with hwatching
    have htoken : watching.tokenOf? = Function.update s.tokenOf? fd (some t) := tokenOf?_watch hfd
    have hnotfd : fd ∉ s.signalled := fun hmem => h.watched fd hmem hfd
    -- all is noticed but the new descriptor
    have hbut : watching.Sound fun g => readable g && g != fd := by
      refine ⟨h.nodup, fun g hg => ?_, fun g hg hreadable => ?_⟩
      · rw [htoken, Function.update_of_ne (by rintro rfl; exact hnotfd hg)]
        exact h.watched g hg
      · have hne : g ≠ fd := by simp_all
        rw [htoken, Function.update_of_ne hne] at hg
        exact h.noticed g hg (by simp_all)
    cases hreadable : readable fd with
    | true =>
      have heq : s' = watching.signal fd := by simpa [hreadable, hwatching] using hadd.symm
      subst heq
      refine ⟨hfd, hbut.signal fun g hg => ?_, by rw [tokenOf?_signal, htoken]⟩
      simp [hg]
    | false =>
      have heq : s' = watching := by simpa [hreadable, hwatching] using hadd.symm
      subst heq
      refine ⟨hfd, hbut.mono fun g hg => ?_, htoken⟩
      have hne : g ≠ fd := by
        rintro rfl
        simp [hreadable] at hg
      simp [hg, hne]

theorem lookup_filter_ne (l : List (Nat × Nat)) (fd g : Nat) :
    (l.filter (·.1 != fd)).lookup g = if g = fd then none else l.lookup g := by
  induction l with
  | nil => simp
  | cons e rest ih =>
    obtain ⟨a, t⟩ := e
    by_cases ha : a = fd
    · subst ha
      rw [List.filter_cons_of_neg (by simp), ih, List.lookup_cons]
      by_cases hg : g = a
      · simp [hg]
      · simp [hg, beq_eq_false_iff_ne.mpr hg]
    · rw [List.filter_cons_of_pos (by simpa using ha), List.lookup_cons, List.lookup_cons, ih]
      by_cases hg : g = a
      · subst hg
        simp [ha]
      · simp [beq_eq_false_iff_ne.mpr hg]

/-- A descriptor that is not watched any more leaves the queue. -/
theorem remove_eq_ok (h : s.Sound readable) (hremove : s.remove fd = .ok s') :
    s.tokenOf? fd ≠ none ∧ s'.Sound readable ∧
      s'.tokenOf? = Function.update s.tokenOf? fd none := by
  unfold remove at hremove
  cases hcontains : s.contains fd with
  | false => simp [hcontains] at hremove
  | true =>
    rw [hcontains] at hremove
    cases hremove
    have htoken :
      InterestSet.tokenOf? ⟨s.watched.filter (·.1 != fd), s.signalled.filter (· != fd)⟩ =
        Function.update s.tokenOf? fd none := by
      funext g
      rw [Function.update_apply]
      exact lookup_filter_ne s.watched fd g
    refine ⟨contains_iff.mp hcontains,
      ⟨h.nodup.filter _, fun g hg => ?_, fun g hg hr => ?_⟩, htoken⟩
    · obtain ⟨hmem, hne⟩ := List.mem_filter.mp hg
      rw [htoken, Function.update_of_ne (by simpa using hne)]
      exact h.watched g hmem
    · have hne : g ≠ fd := by
        rintro rfl
        simp [htoken] at hg
      rw [htoken, Function.update_of_ne hne] at hg
      exact List.mem_filter.mpr ⟨h.noticed g hg hr, by simpa using hne⟩

/-! ### What a wait collects -/

/-- **Going over the queue.** The readable ones among those that are reached are reported, as many
as may be; if fewer are reported the whole queue was reached. -/
theorem collectFrom_spec (readable : Nat → Bool) : ∀ (queue : List Nat) (limit : Nat),
    ∃ reached, queue = reached ++ (collectFrom readable queue limit).2 ∧
      (collectFrom readable queue limit).1 = reached.filter readable ∧
      (collectFrom readable queue limit).1.length ≤ limit ∧
      ((collectFrom readable queue limit).1.length < limit →
        (collectFrom readable queue limit).2 = [])
  | [], limit => ⟨[], by simp [collectFrom]⟩
  | fd :: queue, 0 => ⟨[], by simp [collectFrom]⟩
  | fd :: queue, limit + 1 => by
    unfold collectFrom
    cases hfd : readable fd with
    | true =>
      obtain ⟨reached, hqueue, hreported, hlength, hrest⟩ := collectFrom_spec readable queue limit
      simp only [if_true]
      refine ⟨fd :: reached, by rw [List.cons_append, ← hqueue], ?_, by simpa using hlength,
        fun hlt => hrest (by simpa using hlt)⟩
      rw [List.filter_cons_of_pos hfd, hreported]
    | false =>
      obtain ⟨reached, hqueue, hreported, hlength, hrest⟩ :=
        collectFrom_spec readable queue (limit + 1)
      simp only [Bool.false_eq_true, if_false]
      refine ⟨fd :: reached, by rw [List.cons_append, ← hqueue], ?_, hlength, hrest⟩
      rw [List.filter_cons_of_neg (by simp [hfd]), hreported]

/-- A wait loses nothing that is watched and readable, and if it could report more it has reported
all of it. -/
theorem Sound.collect (h : s.Sound readable) (limit : Nat) :
    (s.collect readable limit).2.Sound readable ∧
      (s.collect readable limit).2.tokenOf? = s.tokenOf? ∧
      (s.collect readable limit).1.Nodup ∧
      (∀ fd ∈ (s.collect readable limit).1, s.tokenOf? fd ≠ none ∧ readable fd = true) ∧
      (s.collect readable limit).1.length ≤ limit ∧
      ((s.collect readable limit).1.length < limit → ∀ fd, s.tokenOf? fd ≠ none →
        readable fd = true → fd ∈ (s.collect readable limit).1) := by
  obtain ⟨reached, hqueue, hreported, hlength, hrest⟩ := collectFrom_spec readable s.signalled limit
  unfold InterestSet.collect
  dsimp only
  generalize (collectFrom readable s.signalled limit).1 = reported at *
  generalize (collectFrom readable s.signalled limit).2 = rest at *
  subst hreported
  have hnodup : (reached ++ rest).Nodup := hqueue ▸ h.nodup
  have hreached : ∀ {g}, g ∈ reached.filter readable → s.tokenOf? g ≠ none ∧ readable g = true := by
    intro g hg
    obtain ⟨hmem, hr⟩ := List.mem_filter.mp hg
    exact ⟨h.watched g (hqueue ▸ List.mem_append_left _ hmem), hr⟩
  have hnoticed : ∀ {g}, s.tokenOf? g ≠ none → readable g = true →
      g ∈ reached.filter readable ∨ g ∈ rest := by
    intro g hg hr
    have hmem := h.noticed g hg hr
    rw [hqueue, List.mem_append] at hmem
    exact hmem.imp_left fun hin => List.mem_filter.mpr ⟨hin, hr⟩
  refine ⟨⟨?_, fun g hg => ?_, fun g hg hr => ?_⟩, rfl, hnodup.of_append_left.filter _,
    fun g hg => hreached hg, hlength, fun hlt g hg hr => ?_⟩
  · exact List.nodup_append_comm.mp
      (hnodup.sublist (List.Sublist.append List.filter_sublist (List.Sublist.refl rest)))
  · rcases List.mem_append.mp hg with hin | hin
    · exact h.watched g (hqueue ▸ List.mem_append_right _ hin)
    · exact (hreached hin).1
  · exact List.mem_append.mpr (hnoticed hg hr).symm
  · exact (hnoticed hg hr).resolve_right (by simp [hrest hlt])

end InterestSet

/-! ### The host with counters -/

namespace EventHost

variable {s s' : EventHost} {fd : Nat}

theorem readable_setCounter (c : EventCounter) :
    (s.setCounter fd c).readable = Function.update s.readable fd c.readable := by
  funext g
  unfold readable counter setCounter
  rw [Std.TreeMap.getD_insert]
  by_cases hg : g = fd
  · simp [hg]
  · have hne : compare fd g ≠ .eq := by
      rw [Ne, Nat.compare_eq_eq]
      exact fun h => hg h.symm
    simp [hg, hne]

/-- A wait collects, and fails if it has collected nothing and a signal arrives. -/
theorem wait_eq {limit millis : Nat} (hpos : 0 < limit) (hmax : limit ≤ maxEvents) :
    Watching.wait (limit : Int) millis s =
      if ((s.interest.collect s.readable limit).1.isEmpty && s.alarmed) = true then
        .error (.ofCode Errno.interrupted)
          { s with interest := (s.interest.collect s.readable limit).2, alarmed := false }
      else
        .ok ((s.interest.collect s.readable limit).1.filterMap
            (s.interest.collect s.readable limit).2.tokenOf?)
          { s with interest := (s.interest.collect s.readable limit).2, alarmed := false } := by
  have hborne : ¬((limit : Int) ≤ 0 ∨ (maxEvents : Int) < limit) := by omega
  show (if (limit : Int) ≤ 0 ∨ (maxEvents : Int) < limit then _ else _) = _
  rw [if_neg hborne, Int.toNat_natCast]

/-- Each watched descriptor is reported by its token. -/
theorem map_some_filterMap {token : Nat → Option Nat} : ∀ {fds : List Nat},
    (∀ fd ∈ fds, token fd ≠ none) → (fds.filterMap token).map some = fds.map token
  | [], _ => rfl
  | fd :: fds, h => by
    obtain ⟨hwatched, hrest⟩ := List.forall_mem_cons.mp h
    obtain ⟨t, ht⟩ := Option.ne_none_iff_exists'.mp hwatched
    rw [List.filterMap_cons_some ht, List.map_cons, List.map_cons, ht, map_some_filterMap hrest]

/-- **The host with counters is level triggered**, with each number of events that it bears. -/
def levelTriggered (limit : Nat) (hpos : 0 < limit) (hmax : limit ≤ maxEvents) :
    Watching.LevelTriggered EventHost limit where
  token s := s.interest.tokenOf?
  readable := readable
  Sound s := s.interest.Sound s.readable
  added {s s' fd t} hs h := by
    simp only [Watching.add] at h
    cases hadd : s.interest.add fd t (s.readable fd) with
    | error cause => simp [hadd] at h
    | ok interest =>
      rw [hadd] at h
      cases h
      obtain ⟨hnone, hsound, htoken⟩ := InterestSet.add_eq_ok hs hadd
      exact ⟨hnone, hsound, htoken, rfl⟩
  notAdded {s s' fd t cause} hs h := by
    simp only [Watching.add] at h
    cases hadd : s.interest.add fd t (s.readable fd) with
    | ok interest => simp [hadd] at h
    | error cause =>
      rw [hadd] at h
      cases h
      exact ⟨hs, rfl, rfl⟩
  removed {s s' fd} hs h := by
    simp only [Watching.remove] at h
    cases hremove : s.interest.remove fd with
    | error cause => simp [hremove] at h
    | ok interest =>
      rw [hremove] at h
      cases h
      obtain ⟨hsome, hsound, htoken⟩ := InterestSet.remove_eq_ok hs hremove
      exact ⟨hsome, hsound, htoken, rfl⟩
  notRemoved {s s' fd cause} hs h := by
    simp only [Watching.remove] at h
    cases hremove : s.interest.remove fd with
    | ok interest => simp [hremove] at h
    | error cause =>
      have hnone : s.interest.tokenOf? fd = none := by
        unfold InterestSet.remove at hremove
        cases hcontains : s.interest.contains fd with
        | true => simp [hcontains] at hremove
        | false => exact InterestSet.contains_eq_false_iff.mp hcontains
      rw [hremove] at h
      cases h
      exact ⟨hnone, hs, rfl, rfl⟩
  waited {s s' millis tokens} hs h := by
    obtain ⟨hsound, htoken, hnodup, hreported, hlength, hall⟩ := hs.collect limit
    rw [wait_eq hpos hmax] at h
    split at h
    next => cases h
    next =>
      cases h
      rw [htoken]
      have htokens := map_some_filterMap fun fd hfd => (hreported fd hfd).1
      have hcount := congrArg List.length htokens
      rw [List.length_map, List.length_map] at hcount
      rw [hcount]
      exact ⟨⟨_, hnodup, htokens.symm, fun fd hfd => (hreported fd hfd).2, hall⟩, hlength, hsound,
        htoken, rfl⟩
  notWaited {s s' millis cause} hs h := by
    obtain ⟨hsound, htoken, -, -, -, hall⟩ := hs.collect limit
    rw [wait_eq hpos hmax] at h
    split at h
    next hsignal =>
      cases h
      obtain ⟨hempty, -⟩ := Bool.and_eq_true_iff.mp hsignal
      have hnothing := List.isEmpty_iff.mp hempty
      refine ⟨rfl, fun fd hfd => ?_, hsound, htoken, rfl⟩
      by_contra hreadable
      have hmem := hall (by simpa [hnothing] using hpos) fd hfd (by simpa using hreadable)
      simp [hnothing] at hmem
    next => cases h
  notified {s} fd hs := by
    have hreadable : (Watching.notify fd s).readable = Function.update s.readable fd true :=
      (readable_setCounter _).trans (by rw [EventCounter.readable_notify])
    refine ⟨?_, InterestSet.tokenOf?_signal, hreadable⟩
    rw [hreadable]
    exact hs.signal fun g hg => Function.update_of_ne hg _ _
  drained {s} fd hs := by
    have hreadable : (Watching.drain fd s).2.readable = Function.update s.readable fd false :=
      readable_setCounter _
    refine ⟨?_, rfl, hreadable⟩
    rw [hreadable]
    refine hs.mono fun g hg => ?_
    by_cases hgfd : g = fd
    · simp [hgfd] at hg
    · rwa [Function.update_of_ne hgfd] at hg

end EventHost
end DemandPager
