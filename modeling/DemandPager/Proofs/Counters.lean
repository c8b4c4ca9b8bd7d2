/-
# Counters agree with the books

Each counter is raised at another point of an operation, and operations end early when the memory
refuses a call, a callback gives up or an object is unknown. Still, over a whole run the counters
fit together with the records, the objects and the bytes in use, as long as none of them wraps
around, the ring may grow, and no read and no drop of a chunk is refused
(`Worker.counters_agree`).

Two independent accounts are kept of a run. The `Tally` says how the operations ended, which
records they retired and what they did to the callers' state. The journal tells which chunks were
installed, dropped and handed over (`told`). From both follows what each counter should show
(`Tally.total`), and it shows that up to its wrapping. How often hooks were called is read off the
callers' state: a meter on it that each call of a hook raises (`Object.Metered`) goes up by what the
counter of write-backs shows (`Worker.Gauged`).

Key definitions: `Counter`, `WorkEvent.raises`, `told`, `installedBytes`, `Tally`,
`Worker.Tallied`, `Worker.Balanced`, `Object.Metered`, `Worker.Gauged`.
Key theorems: `Stats.get_foldl`, `DropLog.told_eq`, `LoadLog.told_eq`, `Worker.Tallied.balanced`,
`Worker.counters_agree`.
-/
import DemandPager.Proofs.Discretion
import DemandPager.Proofs.Edits
import DemandPager.Proofs.Logs

namespace DemandPager

variable {π γ α : Type}

/-! ### Counters -/

/-- The counters. -/
inductive Counter
  | faults | duplicateFaults | populateCalls | chunksInstalled | chunksEvicted | bytesEvicted
  | writeBacks | objectsAllocated | objectsFreed
deriving DecidableEq, Repr

/-- What a counter shows. -/
def Stats.get (s : Stats) : Counter → Nat
  | .faults => s.faults
  | .duplicateFaults => s.duplicateFaults
  | .populateCalls => s.populateCalls
  | .chunksInstalled => s.chunksInstalled
  | .chunksEvicted => s.chunksEvicted
  | .bytesEvicted => s.bytesEvicted
  | .writeBacks => s.writeBacks
  | .objectsAllocated => s.objectsAllocated
  | .objectsFreed => s.objectsFreed

/-- By how much an event raises a counter. -/
def WorkEvent.raises : WorkEvent → Counter → Nat
  | .fault, .faults | .duplicateFault, .duplicateFaults | .populate, .populateCalls
  | .install, .chunksInstalled | .eviction _, .chunksEvicted | .writeBack, .writeBacks
  | .allocate, .objectsAllocated | .free, .objectsFreed => 1
  | .eviction bytes, .bytesEvicted => bytes
  | _, _ => 0

/-- By how much the events that entries tell of raise a counter. -/
def told (es : List JournalEntry) (c : Counter) : Nat :=
  ((es.flatMap JournalEntry.events).map (·.raises c)).sum

/-- The bytes of the content that an entry tells was installed. -/
def JournalEntry.installedBytes : JournalEntry → Nat
  | .install _ content (.ok true) => content.length
  | _ => 0

/-- The bytes of all chunks that entries tell were installed. -/
def installedBytes (es : List JournalEntry) : Nat := (es.map JournalEntry.installedBytes).sum

/-- Whether an entry tells of a call of a write-back hook. -/
def JournalEntry.isHookCall : JournalEntry → Bool
  | .writeBack .. => true
  | _ => false

@[simp] theorem told_nil (c : Counter) : told [] c = 0 := rfl

@[simp] theorem told_append (es es' : List JournalEntry) (c : Counter) :
    told (es ++ es') c = told es c + told es' c := by
  simp [told]

@[simp] theorem told_cons (x : JournalEntry) (es : List JournalEntry) (c : Counter) :
    told (x :: es) c = (x.events.map (·.raises c)).sum + told es c := by
  simp [told]

@[simp] theorem installedBytes_nil : installedBytes [] = 0 := rfl

@[simp] theorem installedBytes_append (es es' : List JournalEntry) :
    installedBytes (es ++ es') = installedBytes es + installedBytes es' := by
  simp [installedBytes]

@[simp] theorem installedBytes_cons (x : JournalEntry) (es : List JournalEntry) :
    installedBytes (x :: es) = x.installedBytes + installedBytes es := by
  simp [installedBytes]

/-- No entry tells of a fault, of a new object or of one that went. -/
theorem told_eq_zero {c : Counter} (hc : c = .faults ∨ c = .objectsAllocated ∨ c = .objectsFreed) :
    ∀ es : List JournalEntry, told es c = 0
  | [] => rfl
  | x :: es => by
    have hx : (x.events.map (·.raises c)).sum = 0 := by
      unfold JournalEntry.events
      rcases hc with rfl | rfl | rfl <;> split <;> rfl
    rw [told_cons, hx, told_eq_zero hc es]

/-- The write-backs that entries tell of are the calls of hooks. -/
theorem told_writeBacks : ∀ es : List JournalEntry,
    told es .writeBacks = es.countP (·.isHookCall)
  | [] => rfl
  | x :: es => by
    have hx : (x.events.map (·.raises .writeBacks)).sum = if x.isHookCall then 1 else 0 := by
      cases x with
      | install start content result => rcases result with _ | _ | _ <;> rfl
      | discard start len result => cases result <;> rfl
      | _ => rfl
    rw [told_cons, hx, told_writeBacks es, List.countP_cons, Nat.add_comm]

namespace Stats

variable {s : Stats} {c : Counter} {n : Nat}

/-- An event raises a counter, which wraps around. -/
theorem get_record (h : s.get c = n % wordBound) (event : WorkEvent) :
    (s.record event).get c = (n + event.raises c) % wordBound := by
  have hsame : (n + 0) % wordBound = s.get c := h.symm
  have hbump : ∀ k, bump (s.get c) k = (n + k) % wordBound := by
    intro k
    unfold bump
    rw [h, Nat.mod_add_mod]
  cases event <;> cases c <;> first | exact hsame.symm | exact hbump _

theorem get_foldl (h : s.get c = n % wordBound) (events : List WorkEvent) :
    (events.foldl record s).get c = (n + (events.map (·.raises c)).sum) % wordBound := by
  induction events generalizing s n with
  | nil => exact h
  | cons event events ih =>
    rw [List.foldl_cons, List.map_cons, List.sum_cons, ← Nat.add_assoc]
    exact ih (get_record h event)

end Stats

/-! ### What segments tell -/

section Segments

variable {objects : List (Interval (Object γ))} {records : List ChunkRecord} {client client' : γ}
  {es : List JournalEntry}

/-- The chunk counters that entries do not raise but for write-backs. -/
structure Uneventful (es : List JournalEntry) : Prop where
  installed : told es .chunksInstalled = 0
  duplicate : told es .duplicateFaults = 0
  evicted : told es .chunksEvicted = 0
  evictedBytes : told es .bytesEvicted = 0
  bytes : installedBytes es = 0

theorem Uneventful.append {es' : List JournalEntry} (h : Uneventful es) (h' : Uneventful es') :
    Uneventful (es ++ es') := by
  obtain ⟨h1, h2, h3, h4, h5⟩ := h
  obtain ⟨h1', h2', h3', h4', h5'⟩ := h'
  constructor
  all_goals simp only [told_append, installedBytes_append]
  all_goals omega

/-- Entries that each tell of nothing that is counted or installed. -/
def Mute (es : List JournalEntry) : Prop := ∀ x ∈ es, x.events = [] ∧ x.installedBytes = 0

theorem Mute.events (h : Mute es) : es.flatMap JournalEntry.events = [] :=
  List.flatMap_eq_nil_iff.mpr fun x hx => (h x hx).1

theorem Mute.told (h : Mute es) (c : Counter) : told es c = 0 := by
  unfold DemandPager.told
  rw [h.events]
  rfl

theorem Mute.uneventful (h : Mute es) : Uneventful es := by
  refine ⟨h.told _, h.told _, h.told _, h.told _, ?_⟩
  refine List.sum_eq_zero_iff_forall_eq_nat.mpr fun n hn => ?_
  obtain ⟨x, hx, rfl⟩ := List.mem_map.mp hn
  exact (h x hx).2

theorem OfferLog.uneventful {e : Interval (Object γ)} {k : Nat}
    (h : OfferLog e k client es client') : Uneventful es := by
  cases h with
  | unwanted => exact ⟨rfl, rfl, rfl, rfl, rfl⟩
  | taken => exact ⟨rfl, rfl, rfl, rfl, rfl⟩

theorem OffersLog.uneventful (h : OffersLog objects records client es client') : Uneventful es := by
  induction h with
  | nil => exact ⟨rfl, rfl, rfl, rfl, rfl⟩
  | cons _ _ hoffer _ ih => exact hoffer.uneventful.append ih

/-- The live records among some. -/
def liveCount (records : List ChunkRecord) : Nat := records.countP (·.isLive)

@[simp] theorem liveCount_nil : liveCount [] = 0 := rfl

theorem liveCount_cons (r : ChunkRecord) (rest : List ChunkRecord) :
    liveCount (r :: rest) = liveCount rest + if r.isLive then 1 else 0 := List.countP_cons ..

@[simp] theorem liveCount_append (records records' : List ChunkRecord) :
    liveCount (records ++ records') = liveCount records + liveCount records' :=
  List.countP_append ..

/-- **Each live record that is taken is counted as evicted, with its bytes.** -/
theorem DropLog.told_eq (h : DropLog objects records client es client') :
    told es .chunksInstalled = 0 ∧ told es .duplicateFaults = 0 ∧
      told es .chunksEvicted = liveCount records ∧
      told es .bytesEvicted = Ring.bytesOf records ∧ installedBytes es = 0 := by
  induction h with
  | nil => exact ⟨rfl, rfl, rfl, rfl, rfl⟩
  | @retired r _ _ _ _ hr _ ih =>
    have hsize : r.size = 0 := by
      simpa [ChunkRecord.isLive] using hr
    rw [liveCount_cons, hr, Ring.bytesOf_cons, hsize, Nat.zero_add]
    exact ih
  | live _ _ hlive hoffer _ ih =>
    obtain ⟨h1, h2, h3, h4, h5⟩ := hoffer.uneventful
    rw [liveCount_cons, hlive, Ring.bytesOf_cons]
    simp only [told_append, told_cons, installedBytes_append, installedBytes_cons, h1, h2, h3, h4,
      h5, ih, JournalEntry.events, JournalEntry.installedBytes, List.map_cons, List.map_nil,
      List.sum_cons, List.sum_nil, WorkEvent.raises, Nat.zero_add, Nat.add_zero, if_true]
    exact ⟨trivial, trivial, Nat.add_comm .., trivial, trivial⟩

/-- **A fault that is handled is counted as an install or as a duplicate**, and each record that
is added as an install. -/
theorem LoadLog.told_eq {handled : Bool}
    (h : LoadLog objects true client handled records es client') :
    told es .chunksInstalled = liveCount records ∧
      told es .chunksInstalled + told es .duplicateFaults = handled.toNat ∧
      told es .chunksEvicted = 0 ∧ told es .bytesEvicted = 0 ∧
      installedBytes es = Ring.bytesOf records := by
  cases h with
  | unbegun => exact ⟨rfl, rfl, rfl, rfl, rfl⟩
  | unfilled => exact ⟨rfl, rfl, rfl, rfl, rfl⟩
  | refused => exact ⟨rfl, rfl, rfl, rfl, rfl⟩
  | present => exact ⟨rfl, rfl, rfl, rfl, rfl⟩
  | loaded _ _ _ hlive hlen =>
    refine ⟨?_, rfl, rfl, rfl, ?_⟩
    · rw [liveCount_cons, hlive]
      rfl
    · rw [Ring.bytesOf_cons, ← hlen]
      simp [JournalEntry.installedBytes, Interval.populating]
  | unrecorded _ _ hgrow => cases hgrow

theorem PlaceLog.mute {o : Object γ} (h : PlaceLog o es) : Mute es := by
  cases h with
  | unasked => exact fun _ hx => absurd hx List.not_mem_nil
  | unreserved => exact List.forall_mem_singleton.mpr ⟨rfl, rfl⟩
  | reserved hes =>
    refine List.forall_mem_cons.mpr ⟨⟨rfl, rfl⟩, fun x hx => ?_⟩
    have habout := hes x hx
    unfold JournalEntry.IsAbout at habout
    split at habout
    all_goals first | exact ⟨rfl, rfl⟩ | exact habout.elim

/-- The entries of a release after the offers. -/
theorem mute_release (e : Interval (Object γ)) (result : Except PagerError Unit) :
    Mute (.unregister e.start e.len (.ok ()) :: .release e.start e.len result ::
      e.value.farewell) := by
  refine List.forall_mem_cons.mpr
    ⟨⟨rfl, rfl⟩, List.forall_mem_cons.mpr ⟨⟨rfl, rfl⟩, fun x hx => ?_⟩⟩
  unfold Object.farewell at hx
  split at hx
  · rw [List.mem_singleton.mp hx]
    exact ⟨rfl, rfl⟩
  · cases hx

/-! ### What hooks were called -/

/-- A meter on the callers' state counts the calls of the hook of an object: each raises it by
one, and the other callbacks leave it as it is. -/
structure Object.Metered (meter : γ → Nat) (o : Object γ) : Prop where
  hook : ∀ hook, o.callbacks.writeBack = some hook → ∀ first stop bytes client,
    meter (hook first stop bytes client).2 = meter client + 1
  populate : ∀ first stop target client,
    meter (o.callbacks.populate first stop target client).2.2 = meter client
  destructor : ∀ destructor, o.callbacks.destructor = some destructor → ∀ client,
    meter (destructor client) = meter client

variable {meter : γ → Nat}

theorem Object.Metered.finished {o : Object γ} (h : o.Metered meter) (client : γ) :
    meter (o.finished client) = meter client := by
  unfold Object.finished
  split
  · rfl
  · exact h.destructor _ ‹_› client

/-- **An offer is told of as a write-back exactly if the hook is called.** -/
theorem OfferLog.meter_eq {e : Interval (Object γ)} {k : Nat} (h : OfferLog e k client es client')
    (hmeter : e.value.Metered meter) : meter client' = meter client + told es .writeBacks := by
  cases h with
  | unwanted => rfl
  | @taken _ given _ _ _ hhook _ _ hcall =>
    have hraised := hmeter.hook _ hhook (e.value.geometry.chunk k).first
      (e.value.geometry.chunk k).stop given client
    rw [hcall] at hraised
    exact hraised

theorem OffersLog.meter_eq (h : OffersLog objects records client es client')
    (hmeter : ∀ e ∈ objects, e.value.Metered meter) :
    meter client' = meter client + told es .writeBacks := by
  induction h with
  | nil => rfl
  | cons he _ hoffer _ ih =>
    rw [ih, hoffer.meter_eq (hmeter _ he), told_append, Nat.add_assoc]

theorem DropLog.meter_eq (h : DropLog objects records client es client')
    (hmeter : ∀ e ∈ objects, e.value.Metered meter) :
    meter client' = meter client + told es .writeBacks := by
  induction h with
  | nil => rfl
  | retired _ _ ih => exact ih
  | live he _ _ hoffer _ ih =>
    rw [ih, hoffer.meter_eq (hmeter _ he), told_append, told_cons, Nat.add_assoc]
    simp [JournalEntry.events, WorkEvent.raises]

/-- To load a chunk calls no hook. -/
theorem LoadLog.meter_eq {growable handled : Bool}
    (h : LoadLog objects growable client handled records es client')
    (hmeter : ∀ e ∈ objects, e.value.Metered meter) :
    meter client' = meter client + told es .writeBacks := by
  have hfilled : ∀ {e : Interval (Object γ)} {k : Nat} {content : Bytes}, e ∈ objects →
      Filled e k client content client' → meter client' = meter client := by
    rintro e k content he ⟨target, filled, -, hfill, -⟩
    rw [(Object.fill_eq hfill).2]
    exact (hmeter e he).populate ..
  cases h with
  | unbegun => rfl
  | unfilled he hfill =>
    obtain ⟨target, reason, filled, -, hfill⟩ := hfill
    rw [(Object.fill_eq hfill).2]
    exact (hmeter _ he).populate ..
  | refused he hfill => exact hfilled he hfill
  | present he hfill => exact hfilled he hfill
  | loaded he hfill => exact hfilled he hfill
  | unrecorded he hfill => exact hfilled he hfill

end Segments

/-! ### Records that are retired -/

/-- The records that were live before and are not any more. -/
def retiredBetween (before after : List ChunkRecord) : List ChunkRecord :=
  ((before.zip after).filter fun p => p.1.isLive && !p.2.isLive).map (·.1)

theorem retiredBetween_self : ∀ records : List ChunkRecord, retiredBetween records records = []
  | [] => rfl
  | r :: rest => by
    have ih := retiredBetween_self rest
    unfold retiredBetween at ih ⊢
    rw [List.zip_cons_cons, List.filter_cons_of_neg (by simp), ih]

/-- **A retired owner's records are no longer live, and all others are as they were.** -/
theorem retiredBetween_retired (owner : Nat) : ∀ records : List ChunkRecord,
    liveCount (Ring.retired owner records) +
        (retiredBetween records (Ring.retired owner records)).length = liveCount records ∧
      Ring.bytesOf (Ring.retired owner records) +
        Ring.bytesOf (retiredBetween records (Ring.retired owner records)) = Ring.bytesOf records
  | [] => ⟨rfl, rfl⟩
  | r :: rest => by
    obtain ⟨hcount, hbytes⟩ := retiredBetween_retired owner rest
    have hdead : ({ r with size := 0 } : ChunkRecord).isLive = false := rfl
    unfold retiredBetween Ring.retired at hcount hbytes ⊢
    rw [List.map_cons, List.zip_cons_cons]
    by_cases howner : r.owner = owner
    · rw [if_pos howner]
      by_cases hlive : r.isLive = true
      · rw [List.filter_cons_of_pos (by rw [hlive]; rfl)]
        simp only [liveCount_cons, List.map_cons, List.length_cons, Ring.bytesOf_cons, hlive, hdead,
          if_true, Bool.false_eq_true, if_false]
        omega
      · have hzero : r.size = 0 := by simpa [ChunkRecord.isLive] using hlive
        rw [List.filter_cons_of_neg (by simp [hlive])]
        simp only [liveCount_cons, Ring.bytesOf_cons, hlive, hdead, if_false, Bool.false_eq_true]
        omega
    · rw [if_neg howner, List.filter_cons_of_neg (by simp)]
      simp only [liveCount_cons, Ring.bytesOf_cons]
      omega

theorem liveCount_take_drop (n : Nat) (records : List ChunkRecord) :
    liveCount (records.take n) + liveCount (records.drop n) = liveCount records := by
  rw [← liveCount_append, List.take_append_drop]

theorem bytesOf_take_drop (n : Nat) (records : List ChunkRecord) :
    Ring.bytesOf (records.take n) + Ring.bytesOf (records.drop n) = Ring.bytesOf records := by
  rw [← Ring.bytesOf_append, List.take_append_drop]

/-! ### Runs -/

/-- How the operations of a run ended, and which live records the releases retired. -/
@[ext]
structure Tally (γ : Type) where
  /-- Faults that were handled or were not. -/
  faults : Nat := 0
  handled : Nat := 0
  created : Nat := 0
  released : Nat := 0
  retired : List ChunkRecord := []
  /-- The objects that were created. -/
  owners : List (Object γ) := []
  /-- The callers' states before and after each operation. -/
  spans : List (γ × γ) := []

/-- By how much the ends of operations raise a counter. -/
def Tally.raises (t : Tally γ) : Counter → Nat
  | .faults => t.faults
  | .objectsAllocated => t.created
  | .objectsFreed => t.released
  | _ => 0

/-- What a counter would show if it did not wrap around. -/
def Tally.total (t : Tally γ) (journal : List JournalEntry) (c : Counter) : Nat :=
  told journal c + t.raises c

/-- Whether an entry tells neither of a call about chunks or objects nor of a callback. -/
def JournalEntry.isIdle : JournalEntry → Bool
  | .wait _ | .forget .. | .serve _ | .answer .. | .readFaults _ => true
  | _ => false

theorem mute_of_isIdle {es : List JournalEntry} (h : ∀ x ∈ es, x.isIdle = true) : Mute es := by
  intro x hx
  have hidle := h x hx
  unfold JournalEntry.isIdle at hidle
  split at hidle
  all_goals first | exact ⟨rfl, rfl⟩ | cases hidle

namespace Worker

variable {w v w' : Worker π γ} {t : Tally γ} {es : List JournalEntry} {ok : Bool}

/-- No read and no drop of a chunk was refused. -/
def Intact (w : Worker π γ) : Prop := ∀ x ∈ w.journal, x.isLoss = false

theorem Intact.of_later (h : w'.Intact) (hjournal : w'.journal = w.journal ++ es) : w.Intact := by
  intro x hx
  refine h x ?_
  rw [hjournal]
  exact List.mem_append_left _ hx

theorem Intact.not_lost (h : w'.Intact) : ¬Lost w w' := by
  rintro ⟨es, hjournal, x, hx, hloss⟩
  have hnone := h x (hjournal ▸ List.mem_append_right _ hx)
  rw [hloss] at hnone
  cases hnone

theorem Comes.journal {act : WorkerM π γ α} (hstep : Comes act w ok w')
    (hact : Leads Discreetly act w) : ∃ es, w'.journal = w.journal ++ es := by
  obtain ⟨es, hdiscreet⟩ := Ends.of_comes (P := fun _ w' => Discreetly w w')
    (Ends.mono hact (fun _ _ h => h) fun _ _ h _ _ => h) hstep
  exact ⟨es, hdiscreet.journal⟩

theorem Intact.before {act : WorkerM π γ α} (h : w'.Intact) (hact : Leads Discreetly act w)
    (hstep : Comes act w ok w') : w.Intact := by
  obtain ⟨es, hjournal⟩ := hstep.journal hact
  exact h.of_later hjournal

variable [Paging π]

/-- The states of a worker between its operations, each with the tally of the run so far. A fault
may be handled or not. -/
inductive Tallied : Worker π γ → Tally γ → Prop
  /-- The books, the journal and the counters are new. -/
  | start {pageSize : Nat} {limits : WaterMarks} {o : Options} {desk : Desk γ} {site : Site π γ}
      (hdesk : Desk.ofOptions pageSize limits o = .ok desk) (hmarks : limits.low < limits.high)
      (hposted : site.Posted) (hjournal : site.journal = []) (hstats : site.exchange.stats = {}) :
      Tallied { toSite := site, toDesk := desk } {}
  /-- Callers and the host change the site, and the worker waits for them. -/
  | meanwhile {w : Worker π γ} {t : Tally γ} {site : Site π γ} {es : List JournalEntry}
      (h : Tallied w t) (hposted : site.Posted) (hstats : site.exchange.stats = w.exchange.stats)
      (hjournal : site.journal = w.journal ++ es) (hidle : ∀ x ∈ es, x.isIdle = true) :
      Tallied { w with toSite := site } t
  /-- The number of the object is new. -/
  | allocate {w w' : Worker π γ} {t : Tally γ} {object : Object γ} {ok : Bool} (h : Tallied w t)
      (hbuilt : object.geometry.Built) (hfresh : ∀ e ∈ w.objects.toList, e.value.id ≠ object.id)
      (hstep : Comes (Worker.allocate object) w ok w') :
      Tallied w' { t with
        created := t.created + ok.toNat
        owners := bif ok then object :: t.owners else t.owners
        spans := (w.client, w'.client) :: t.spans }
  | free {w w' : Worker π γ} {t : Tally γ} {id start : Nat} {ok : Bool} (h : Tallied w t)
      (hstep : Comes (Worker.free id start) w ok w') :
      Tallied w' { t with
        released := t.released + ok.toNat
        retired := t.retired ++ retiredBetween w.ring.toList w'.ring.toList
        spans := (w.client, w'.client) :: t.spans }
  | fault {w w' : Worker π γ} {t : Tally γ} {address : Nat} {ok : Bool} (h : Tallied w t)
      (hstep : Comes (handleFault address) w ok w') :
      Tallied w' { t with
        faults := t.faults + 1
        handled := t.handled + ok.toNat
        spans := (w.client, w'.client) :: t.spans }

/-- **The books stay in order as long as no chunk is lost.** -/
theorem Tallied.inOrder (h : Tallied w t) (hintact : w.Intact) : w.InOrder := by
  induction h with
  | start hdesk hmarks hposted =>
    obtain ⟨hfiled, howes⟩ := Desk.ofOptions_filed hdesk
    obtain ⟨-, -, -, -, rfl, -⟩ := Desk.ofOptions_eq_ok hdesk
    exact ⟨hfiled, howes, hmarks, hposted⟩
  | meanwhile _ hposted _ hjournal _ ih =>
    have hw := ih (hintact.of_later hjournal)
    exact ⟨hw.filed, hw.owes, hw.marks, hposted⟩
  | @allocate _ _ _ o _ _ hbuilt _ hstep ih =>
    exact (allocate_comes (ih (hintact.before (discreet_allocate o) hstep)) hbuilt hstep).1.inOrder
  | @free _ _ _ id start _ _ hstep ih =>
    rcases free_comes (ih (hintact.before (discreet_free id start) hstep)) hstep with hlost | h
    · exact absurd hlost hintact.not_lost
    · exact h.1.inOrder
  | @fault _ _ _ address _ _ hstep ih =>
    rcases handleFault_comes (ih (hintact.before (still_handleFault address).discreet hstep)) hstep
      with hlost | h
    · exact absurd hlost hintact.not_lost
    · exact h.1.inOrder

/-! ### What a run adds up to -/

omit [Paging π] in
/-- The journal and the tally agree with the books and with the counters. -/
structure Balanced (w : Worker π γ) (t : Tally γ) : Prop where
  stats : ∀ c, w.exchange.stats.get c = t.total w.journal c % wordBound
  handled : told w.journal .chunksInstalled + told w.journal .duplicateFaults = t.handled
  objects : t.created = t.released + w.objects.toList.length
  chunks : told w.journal .chunksInstalled =
    told w.journal .chunksEvicted + liveCount w.ring.toList + t.retired.length
  bytes : installedBytes w.journal =
    Ring.bytesOf w.ring.toList + told w.journal .bytesEvicted + Ring.bytesOf t.retired

namespace Balanced

omit [Paging π]

/-- The counters after the events of an operation, which its entries and its end tell of. -/
theorem stats_foldl (hb : Balanced w t) {t' : Tally γ} {events : List WorkEvent}
    (hjournal : w'.journal = w.journal ++ es)
    (hstats : w'.exchange.stats = events.foldl Stats.record w.exchange.stats)
    (hraises : ∀ c, (events.map (·.raises c)).sum + t.raises c = told es c + t'.raises c)
    (c : Counter) : w'.exchange.stats.get c = t'.total w'.journal c % wordBound := by
  rw [hstats, Stats.get_foldl (hb.stats c)]
  unfold Tally.total
  rw [hjournal, told_append]
  have := hraises c
  congr 1
  omega

/-- Owners and spans are another account. -/
theorem annotate (hb : Balanced w t) (owners : List (Object γ)) (spans : List (γ × γ)) :
    Balanced w { t with owners, spans } :=
  ⟨hb.stats, hb.handled, hb.objects, hb.chunks, hb.bytes⟩

/-- Entries of no weight, while objects and records stay. -/
theorem quiet (hb : Balanced w t) (hjournal : w'.journal = w.journal ++ es) (hes : Uneventful es)
    (hobjects : w'.objects = w.objects) (hring : w'.ring = w.ring)
    (hstats : w'.exchange.stats =
      (es.flatMap JournalEntry.events).foldl Stats.record w.exchange.stats) :
    Balanced w' t := by
  obtain ⟨h1, h2, h3, h4, h5⟩ := hes
  refine ⟨hb.stats_foldl hjournal hstats fun c => rfl, ?_, ?_, ?_, ?_⟩
  all_goals
    simp only [hjournal, hobjects, hring, told_append, installedBytes_append, h1, h2, h3, h4, h5,
      Nat.add_zero]
  exacts [hb.handled, hb.objects, hb.chunks, hb.bytes]

/-- An object is created, or is not. -/
theorem allocate (hb : Balanced w t) (hw : w.InOrder) {o : Object γ} {start : Option Nat}
    (h : Established o w w' start es) (owners : List (Object γ)) (spans : List (γ × γ)) :
    Balanced w' { t with created := t.created + start.isSome.toNat, owners, spans } := by
  have hmute := h.log.mute
  cases start with
  | none =>
    refine (hb.quiet h.journal hmute.uneventful h.objects h.ring ?_).annotate owners spans
    rw [hmute.events]
    exact h.stats
  | some start =>
    obtain ⟨h1, h2, h3, h4, h5⟩ := hmute.uneventful
    have hlength := (IntervalMap.perm_insert hw.filed.objects h.objects).length_eq
    rw [List.length_cons] at hlength
    have hstats : w'.exchange.stats = [WorkEvent.allocate].foldl Stats.record w.exchange.stats :=
      h.stats
    refine ⟨hb.stats_foldl h.journal hstats fun c => ?_, ?_, ?_, ?_, ?_⟩
    · rw [hmute.told]
      cases c <;> simp [Tally.raises, WorkEvent.raises, Nat.add_comm]
    all_goals simp only [h.journal, h.ring, told_append, installedBytes_append, h1, h2, h3, h4, h5,
      Nat.add_zero, Option.isSome_some, Bool.toNat_true]
    · exact hb.handled
    · have := hb.objects
      omega
    · exact hb.chunks
    · exact hb.bytes

/-- An object is released, or is not. -/
theorem free (hb : Balanced w t) (hw : w.InOrder) {id start : Nat}
    (h : ReleaseEnd id start w w' ok) (spans : List (γ × γ)) :
    Balanced w' { t with
      released := t.released + ok.toNat
      retired := t.retired ++ retiredBetween w.ring.toList w'.ring.toList
      spans } := by
  cases h with
  | unknown _ heq =>
    subst heq
    rw [retiredBetween_self, List.append_nil]
    exact hb.annotate t.owners spans
  | @stayed e offers cause _ h =>
    have hmute : Mute [.unregister e.start e.len (.error cause)] :=
      List.forall_mem_singleton.mpr ⟨rfl, rfl⟩
    have hes := h.offerLog.uneventful.append hmute.uneventful
    rw [h.ring, retiredBetween_self, List.append_nil]
    exact (hb.quiet h.journal hes h.objects h.ring h.stats).annotate t.owners spans
  | @dissolved e _ offers result he _ _ h =>
    have hmute := mute_release e result
    obtain ⟨h1, h2, h3, h4, h5⟩ := h.offerLog.uneventful.append hmute.uneventful
    have hstats : w'.exchange.stats = (offers.flatMap JournalEntry.events ++ [WorkEvent.free]).foldl
        Stats.record w.exchange.stats := by
      rw [h.stats, List.foldl_append]
      rfl
    have hlength := (perm_of_mem hw.filed.objects.starts_ne he).length_eq
    rw [List.length_cons, ← h.objects] at hlength
    obtain ⟨hcount, hbytes⟩ := retiredBetween_retired e.value.id w.ring.toList
    rw [← h.records] at hcount hbytes
    refine ⟨hb.stats_foldl h.journal hstats fun c => ?_, ?_, ?_, ?_, ?_⟩
    · rw [told_append, hmute.told, List.map_append, List.sum_append]
      unfold told
      cases c <;> simp [Tally.raises, WorkEvent.raises]
      omega
    all_goals simp only [h.journal, told_append w.journal, installedBytes_append w.journal, h1, h2,
      h3, h4, h5, Nat.add_zero]
    · exact hb.handled
    · have := hb.objects
      simp only [Bool.toNat_true]
      omega
    · have := hb.chunks
      rw [List.length_append]
      omega
    · have := hb.bytes
      rw [Ring.bytesOf_append]
      omega

/-- A fault is handled, or is not. -/
theorem fault (hb : Balanced w t) (hgrow : w.ringGrowable = true) {n : Nat}
    {records : List ChunkRecord} {drops loads : List JournalEntry} {client : γ}
    (h : Resolved ok w w' n records drops loads client) (hobjects : w'.objects = w.objects)
    (spans : List (γ × γ)) :
    Balanced w' { t with faults := t.faults + 1, handled := t.handled + ok.toNat, spans } := by
  obtain ⟨d1, d2, d3, d4, d5⟩ := h.dropLog.told_eq
  have hloads := h.loadLog
  rw [hgrow] at hloads
  obtain ⟨l1, l2, l3, l4, l5⟩ := hloads.told_eq
  have hstats : w'.exchange.stats = (WorkEvent.fault :: (drops ++ loads).flatMap
      JournalEntry.events).foldl Stats.record w.exchange.stats := h.stats hgrow
  have hcount := liveCount_take_drop n w.ring.toList
  have hbytes := bytesOf_take_drop n w.ring.toList
  refine ⟨hb.stats_foldl h.journal hstats fun c => ?_, ?_, ?_, ?_, ?_⟩
  · unfold told
    cases c <;> simp [Tally.raises, WorkEvent.raises]
    omega
  all_goals simp only [h.journal, h.ring, hobjects, told_append, installedBytes_append,
    liveCount_append, Ring.bytesOf_append, d1, d2, d3, d4, d5, l3, l4, l5, Nat.add_zero]
  · have := hb.handled
    omega
  · exact hb.objects
  · have := hb.chunks
    omega
  · have := hb.bytes
    omega

end Balanced

/-- **A run keeps the balance as long as no chunk is lost and the ring may grow.** -/
theorem Tallied.balanced (h : Tallied w t) (hgrow : w.ringGrowable = true) (hintact : w.Intact) :
    w.Balanced t := by
  induction h with
  | @start _ _ _ desk site hdesk _ _ hjournal hstats =>
    obtain ⟨hobjects, hrecords, -⟩ := Desk.ofOptions_eq_ok hdesk
    refine ⟨fun c => ?_, ?_, ?_, ?_, ?_⟩
    all_goals simp only [hjournal, hstats, hobjects, hrecords]
    · cases c <;> rfl
    all_goals rfl
  | @meanwhile w _ site es _ _ hstats hjournal hidle ih =>
    have hmute := mute_of_isIdle hidle
    refine (ih hgrow (hintact.of_later hjournal)).quiet hjournal hmute.uneventful rfl rfl ?_
    rw [hmute.events]
    exact hstats
  | @allocate _ _ _ o _ h hbuilt _ hstep ih =>
    have hbefore := hintact.before (discreet_allocate o) hstep
    have hw := h.inOrder hbefore
    obtain ⟨hrestored, _, _, rfl, hestablished⟩ := allocate_comes hw hbuilt hstep
    exact (ih (hrestored.ringGrowable.symm.trans hgrow) hbefore).allocate hw hestablished _ _
  | @free _ _ _ id start _ h hstep ih =>
    have hbefore := hintact.before (discreet_free id start) hstep
    have hw := h.inOrder hbefore
    obtain ⟨hrestored, hreleased⟩ := (free_comes hw hstep).resolve_left hintact.not_lost
    exact (ih (hrestored.ringGrowable.symm.trans hgrow) hbefore).free hw hreleased _
  | @fault _ _ _ address _ h hstep ih =>
    have hbefore := hintact.before (still_handleFault address).discreet hstep
    have hw := h.inOrder hbefore
    obtain ⟨hrestored, hobjects, _, _, _, _, _, hresolved⟩ :=
      (handleFault_comes hw hstep).resolve_left hintact.not_lost
    have hgrown := hrestored.ringGrowable.symm.trans hgrow
    exact (ih hgrown hbefore).fault hgrown hresolved hobjects _

omit [Paging π] in
/-- The objects in the directory were created in the run, and over its operations a meter that
counts the calls of their hooks went up by the write-backs that the journal tells of. -/
structure Gauged (w : Worker π γ) (t : Tally γ) : Prop where
  owned : ∀ e ∈ w.objects.toList, e.value ∈ t.owners
  calls : ∀ meter : γ → Nat, (∀ o ∈ t.owners, o.Metered meter) →
    (t.spans.map fun s => meter s.2).sum =
      (t.spans.map fun s => meter s.1).sum + told w.journal .writeBacks

namespace Gauged

omit [Paging π]

theorem step (hg : Gauged w t) {t' : Tally γ} (hjournal : w'.journal = w.journal ++ es)
    (howners : t.owners ⊆ t'.owners) (hspans : t'.spans = (w.client, w'.client) :: t.spans)
    (howned : ∀ e ∈ w'.objects.toList, e.value ∈ t'.owners)
    (hmeter : ∀ meter : γ → Nat, (∀ e ∈ w.objects.toList, e.value.Metered meter) →
      meter w'.client = meter w.client + told es .writeBacks) : Gauged w' t' := by
  refine ⟨howned, fun meter hall => ?_⟩
  have hbefore := hg.calls meter fun o ho => hall o (howners ho)
  have hstep := hmeter meter fun e he => hall _ (howners (hg.owned e he))
  rw [hspans, hjournal, told_append]
  simp only [List.map_cons, List.sum_cons]
  omega

theorem allocate (hg : Gauged w t) (hw : w.InOrder) {o : Object γ} {start : Option Nat}
    (h : Established o w w' start es) {t' : Tally γ}
    (howners : t'.owners = bif start.isSome then o :: t.owners else t.owners)
    (hspans : t'.spans = (w.client, w'.client) :: t.spans) : Gauged w' t' := by
  refine hg.step h.journal ?_ hspans (fun e he => ?_) fun meter _ => ?_
  · rw [howners]
    cases start with
    | none => exact List.Subset.refl _
    | some start => exact List.subset_cons_self ..
  · rw [howners]
    cases start with
    | none => exact hg.owned e (h.objects ▸ he)
    | some start =>
      rcases (IntervalMap.mem_insert hw.filed.objects h.objects).mp he with rfl | hold
      · exact List.mem_cons_self ..
      · exact List.mem_cons_of_mem _ (hg.owned e hold)
  · rw [h.client, h.log.mute.told]
    rfl

theorem free (hg : Gauged w t) {id start : Nat} (h : ReleaseEnd id start w w' ok) {t' : Tally γ}
    (howners : t'.owners = t.owners) (hspans : t'.spans = (w.client, w'.client) :: t.spans) :
    Gauged w' t' := by
  have hsubset : t.owners ⊆ t'.owners := by
    rw [howners]
    exact List.Subset.refl _
  cases h with
  | unknown _ heq =>
    subst heq
    exact hg.step (List.append_nil _).symm hsubset hspans (howners ▸ hg.owned) fun _ _ => rfl
  | @stayed e _ cause _ h =>
    have hmute : Mute [.unregister e.start e.len (.error cause)] :=
      List.forall_mem_singleton.mpr ⟨rfl, rfl⟩
    refine hg.step h.journal hsubset hspans (fun x hx => ?_) fun meter hmeter => ?_
    · rw [howners]
      exact hg.owned x (h.objects ▸ hx)
    · rw [h.offerLog.meter_eq hmeter, told_append, hmute.told, Nat.add_zero]
  | @dissolved e _ _ result he _ _ h =>
    refine hg.step h.journal hsubset hspans (fun x hx => ?_) fun meter hmeter => ?_
    · rw [h.objects] at hx
      rw [howners]
      exact hg.owned x (List.mem_filter.mp hx).1
    · rw [h.finished, (hmeter e he).finished, h.offerLog.meter_eq hmeter, told_append,
        (mute_release e result).told, Nat.add_zero]

theorem fault (hg : Gauged w t) {n : Nat} {records : List ChunkRecord}
    {drops loads : List JournalEntry} {client : γ}
    (h : Resolved ok w w' n records drops loads client) (hobjects : w'.objects = w.objects)
    {t' : Tally γ} (howners : t'.owners = t.owners)
    (hspans : t'.spans = (w.client, w'.client) :: t.spans) : Gauged w' t' := by
  refine hg.step h.journal ?_ hspans (fun e he => ?_) fun meter hmeter => ?_
  · rw [howners]
    exact List.Subset.refl _
  · rw [howners]
    exact hg.owned e (hobjects ▸ he)
  · rw [h.loadLog.meter_eq hmeter, h.dropLog.meter_eq hmeter, told_append, Nat.add_assoc]

end Gauged

/-- **What a meter counts are the write-backs of the journal**, as long as no chunk is lost. -/
theorem Tallied.gauged (h : Tallied w t) (hintact : w.Intact) : w.Gauged t := by
  induction h with
  | @start _ _ _ desk site hdesk _ _ hjournal =>
    obtain ⟨hobjects, -⟩ := Desk.ofOptions_eq_ok hdesk
    refine ⟨fun e he => ?_, fun _ _ => ?_⟩
    · rw [hobjects] at he
      cases he
    · show 0 = 0 + told site.journal .writeBacks
      rw [hjournal]
      rfl
  | @meanwhile w _ site es _ _ _ hjournal hidle ih =>
    have hg := ih (hintact.of_later hjournal)
    refine ⟨hg.owned, fun meter hall => ?_⟩
    show _ = _ + told site.journal .writeBacks
    rw [hjournal, told_append, (mute_of_isIdle hidle).told]
    exact hg.calls meter hall
  | @allocate _ _ _ o _ h hbuilt _ hstep ih =>
    have hbefore := hintact.before (discreet_allocate o) hstep
    obtain ⟨-, _, _, rfl, hestablished⟩ := allocate_comes (h.inOrder hbefore) hbuilt hstep
    exact (ih hbefore).allocate (h.inOrder hbefore) hestablished rfl rfl
  | @free _ _ _ id start _ h hstep ih =>
    have hbefore := hintact.before (discreet_free id start) hstep
    obtain ⟨-, hreleased⟩ :=
      (free_comes (h.inOrder hbefore) hstep).resolve_left hintact.not_lost
    exact (ih hbefore).free hreleased rfl rfl
  | @fault _ _ _ address _ h hstep ih =>
    have hbefore := hintact.before (still_handleFault address).discreet hstep
    obtain ⟨-, hobjects, _, _, _, _, _, hresolved⟩ :=
      (handleFault_comes (h.inOrder hbefore) hstep).resolve_left hintact.not_lost
    exact (ih hbefore).fault hresolved hobjects rfl rfl

/-- **The counters agree with the state.** Take any run of allocations, releases and faults on a
ring that may grow, in which no counter wraps around and no read and no drop of a chunk is
refused. Then faults counts all faults, and the chunks that were installed and the duplicates are
together those that were handled. The objects that were created are the released ones and those in
the directory. The installed chunks are those that were evicted, those of the live records and
those of the records that releases retired; the same holds of their bytes. And write-backs counts
the calls of the hooks: as many are entered, and if a meter on the callers' state goes up by one
with each call of a hook and stays as it is with the other callbacks, then over all operations it
goes up by as much. -/
theorem counters_agree (h : Tallied w t) (hgrow : w.ringGrowable = true) (hintact : w.Intact)
    (hwrap : ∀ c, t.total w.journal c < wordBound) :
    let s := w.exchange.stats
    s.faults = t.faults ∧
      s.chunksInstalled + s.duplicateFaults = t.handled ∧
      s.objectsAllocated = s.objectsFreed + w.objects.toList.length ∧
      s.chunksInstalled = s.chunksEvicted + liveCount w.ring.toList + t.retired.length ∧
      installedBytes w.journal = w.used + s.bytesEvicted + Ring.bytesOf t.retired ∧
      s.writeBacks = w.journal.countP (·.isHookCall) ∧
      ∀ meter : γ → Nat, (∀ o ∈ t.owners, o.Metered meter) →
        (t.spans.map fun p => meter p.2).sum =
          (t.spans.map fun p => meter p.1).sum + s.writeBacks := by
  have hb := h.balanced hgrow hintact
  have hshows : ∀ c, w.exchange.stats.get c = told w.journal c + t.raises c := fun c =>
    (hb.stats c).trans (Nat.mod_eq_of_lt (hwrap c))
  have hused : w.used = Ring.bytesOf w.ring.toList := (h.inOrder hintact).owes.used
  have hfaults : w.exchange.stats.faults = told w.journal .faults + t.faults := hshows .faults
  have hcreated : w.exchange.stats.objectsAllocated =
      told w.journal .objectsAllocated + t.created := hshows .objectsAllocated
  have hreleased : w.exchange.stats.objectsFreed = told w.journal .objectsFreed + t.released :=
    hshows .objectsFreed
  have hinstalled : w.exchange.stats.chunksInstalled = told w.journal .chunksInstalled :=
    hshows .chunksInstalled
  have hduplicate : w.exchange.stats.duplicateFaults = told w.journal .duplicateFaults :=
    hshows .duplicateFaults
  have hevicted : w.exchange.stats.chunksEvicted = told w.journal .chunksEvicted :=
    hshows .chunksEvicted
  have hbytes : w.exchange.stats.bytesEvicted = told w.journal .bytesEvicted := hshows .bytesEvicted
  have hwritten : w.exchange.stats.writeBacks = told w.journal .writeBacks := hshows .writeBacks
  rw [told_eq_zero (.inl rfl), Nat.zero_add] at hfaults
  rw [told_eq_zero (.inr (.inl rfl)), Nat.zero_add] at hcreated
  rw [told_eq_zero (.inr (.inr rfl)), Nat.zero_add] at hreleased
  refine ⟨hfaults, ?_, ?_, ?_, ?_, hwritten.trans (told_writeBacks _), fun meter hmeter => ?_⟩
  · rw [hinstalled, hduplicate, hb.handled]
  · rw [hcreated, hreleased, hb.objects]
  · rw [hinstalled, hevicted, hb.chunks]
  · rw [hused, hbytes, hb.bytes]
  · rw [(h.gauged hintact).calls meter hmeter, hwritten]

/-- What an owner keeps of the elements that are handed back: their numbers and bytes. -/
abbrev SampleShelf := List (Nat × Nat × Bytes)

/-- An object of eight elements, each a page that is filled with the number of the element. Its
owner keeps what is handed back. -/
def sampleKeeper : Object SampleShelf where
  id := 1
  geometry := sampleObject.geometry
  callbacks :=
    { populate := fun first _ target kept => (.filled, target.map fun _ => .ofNat first, kept)
      writeBack := some fun first stop bytes kept => (.taken, kept ++ [(first, stop, bytes)])
      destructor := some id }
  gate := 0

/-- Another such object. -/
def sampleRival : Object SampleShelf := { sampleKeeper with id := 2 }

/-- The worker after faults, the latest first, on the first object. -/
def sampleKeeping : List Nat → Worker ScriptedMemory SampleShelf
  | [] =>
    after (allocate sampleKeeper)
      { pages := { pageSize := 16 }, client := [], toDesk := sampleDesk }
  | address :: rest => after (handleFault address) (sampleKeeping rest)

/-- The third fault evicts the first two chunks; then the other object is created. -/
def sampleShared : Worker ScriptedMemory SampleShelf :=
  after (allocate sampleRival) (sampleKeeping [0x10000020, 0x10000010, 0x10000000])

/-- A chunk of the other object was loaded, the first object was released, and a fault outside of
all objects was not handled. -/
def sampleVaried : Worker ScriptedMemory SampleShelf :=
  after (handleFault 0x10000000) <| after (free 1 0x10000000) <|
    after (handleFault 0x10000090) sampleShared

/-- The element with which a chunk is handed back. -/
def sampleElement (n : Nat) : Nat × Nat × Bytes := (n, n + 1, List.replicate 16 (.ofNat n))

/-- The tally of these operations. -/
def sampleTally : Tally SampleShelf where
  faults := 5
  handled := 4
  created := 2
  released := 1
  retired := [{ address := 0x10000020, size := 16, owner := 1 }]
  owners := [sampleRival, sampleKeeper]
  spans :=
    let evicted := [sampleElement 0, sampleElement 1]
    let freed := evicted ++ [sampleElement 2]
    [(freed, freed), (evicted, freed), (evicted, evicted), (evicted, evicted), ([], evicted),
      ([], []), ([], []), ([], [])]

/-- Two chunks of the first object are loaded. -/
theorem sampleKeeping_tallied : Tallied (sampleKeeping [0x10000010, 0x10000000]) { sampleTally with
    faults := 2, handled := 2, created := 1, released := 0, retired := [], owners := [sampleKeeper]
    spans := sampleTally.spans.drop 5 } := by
  set first : Worker ScriptedMemory SampleShelf :=
    { pages := { pageSize := 16 }, client := [], toDesk := sampleDesk }
  have hposted : first.toSite.Posted := fun _ hm => (List.not_mem_nil hm).elim
  have hstart : Tallied first {} := .start sampleDesk_eq (by decide) hposted rfl rfl
  have hfresh : ∀ e ∈ first.objects.toList, e.value.id ≠ sampleKeeper.id :=
    fun _ he => (List.not_mem_nil he).elim
  have hcreated : Comes (allocate sampleKeeper) first true (sampleKeeping []) :=
    eq_ok_of_ending (by decide +kernel)
  have hfirst : Comes (handleFault 0x10000000) (sampleKeeping []) true
      (sampleKeeping [0x10000000]) := eq_ok_of_ending (by decide +kernel)
  have hsecond : Comes (handleFault 0x10000010) (sampleKeeping [0x10000000]) true
      (sampleKeeping [0x10000010, 0x10000000]) := eq_ok_of_ending (by decide +kernel)
  have hkept := hstart.allocate sampleObject_built hfresh hcreated
  convert (hkept.fault hfirst).fault hsecond using 1
  exact Tally.ext rfl rfl rfl rfl rfl rfl (by decide +kernel)

theorem sampleVaried_tallied : Tallied sampleVaried sampleTally := by
  have hthird : Comes (handleFault 0x10000020) (sampleKeeping [0x10000010, 0x10000000]) true
      (sampleKeeping [0x10000020, 0x10000010, 0x10000000]) := eq_ok_of_ending (by decide +kernel)
  have hfresh : ∀ e ∈ (sampleKeeping [0x10000020, 0x10000010, 0x10000000]).objects.toList,
      e.value.id ≠ sampleRival.id := by decide +kernel
  have hcreated : Comes (allocate sampleRival)
      (sampleKeeping [0x10000020, 0x10000010, 0x10000000]) true sampleShared :=
    eq_ok_of_ending (by decide +kernel)
  set loaded := after (handleFault 0x10000090) sampleShared with hloaded
  set released := after (free 1 0x10000000) loaded with hreleased
  have hfourth : Comes (handleFault 0x10000090) sampleShared true loaded :=
    eq_ok_of_ending (by decide +kernel)
  have hfreed : Comes (free 1 0x10000000) loaded true released := by
    rw [hreleased, hloaded]
    exact eq_ok_of_ending (by decide +kernel)
  have houtside : Comes (handleFault 0x10000000) released false sampleVaried := by
    refine ⟨.unknownAddress 0x10000000, ?_⟩
    rw [hreleased, hloaded]
    exact eq_error_of_ending (by decide +kernel)
  have hshared := (sampleKeeping_tallied.fault hthird).allocate sampleObject_built hfresh hcreated
  convert ((hshared.fault hfourth).free hfreed).fault houtside using 1
  rw [hreleased, hloaded]
  exact Tally.ext rfl rfl rfl rfl (by decide +kernel) rfl (by decide +kernel)

/-- The meter is the number of elements that the owners keep. Three chunks were handed back, two
from evictions and one from a release. -/
theorem counters_agree_sample :
    (sampleVaried.ringGrowable = true ∧ sampleVaried.Intact ∧
      (∀ c, sampleTally.total sampleVaried.journal c < wordBound) ∧
      ∀ o ∈ sampleTally.owners, o.Metered List.length) ∧
    sampleVaried.exchange.stats.faults = 5 ∧
    sampleVaried.exchange.stats.chunksInstalled + sampleVaried.exchange.stats.duplicateFaults = 4 ∧
    sampleVaried.exchange.stats.chunksInstalled =
      sampleVaried.exchange.stats.chunksEvicted + liveCount sampleVaried.ring.toList + 1 ∧
    installedBytes sampleVaried.journal =
      sampleVaried.used + sampleVaried.exchange.stats.bytesEvicted + 16 ∧
    sampleVaried.exchange.stats.writeBacks = 3 ∧
    sampleVaried.client = [sampleElement 0, sampleElement 1, sampleElement 2] := by
  have hgrow : sampleVaried.ringGrowable = true := by decide +kernel
  have hintact : sampleVaried.Intact := by
    unfold Intact
    decide +kernel
  have hwrap : ∀ c, sampleTally.total sampleVaried.journal c < wordBound := by
    intro c
    cases c <;> decide +kernel
  have hmetered : ∀ o ∈ sampleTally.owners, o.Metered List.length := by
    have hkeeper : sampleKeeper.Metered List.length := by
      refine ⟨fun hook hhook first stop bytes kept => ?_, fun _ _ _ _ => rfl, ?_⟩
      · cases hhook
        exact List.length_append
      · intro destructor hdestructor kept
        cases hdestructor
        rfl
    exact List.forall_mem_cons.mpr ⟨⟨hkeeper.hook, hkeeper.populate, hkeeper.destructor⟩,
      List.forall_mem_singleton.mpr hkeeper⟩
  have hkept : sampleVaried.client = [sampleElement 0, sampleElement 1, sampleElement 2] := by
    decide +kernel
  have hrun := sampleVaried_tallied
  generalize sampleVaried = w at hgrow hintact hwrap hkept hrun ⊢
  obtain ⟨hfaults, hhandled, -, hchunks, hbytes, -, hmeter⟩ :=
    counters_agree hrun hgrow hintact hwrap
  have hcalls : 12 = 9 + w.exchange.stats.writeBacks := hmeter List.length hmetered
  exact ⟨⟨hgrow, hintact, hwrap, hmetered⟩, hfaults, hhandled, hchunks, hbytes, by omega, hkept⟩

end Worker
end DemandPager
