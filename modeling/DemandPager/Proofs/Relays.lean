/-
# Errors that are handed on

A step that calls the memory hands on the error that a call is refused with, and then does nothing
more. Only the event loop itself finds that waits were interrupted too often. So if the serving of
tokens ends with that error, the memory gave it for an answer to the last call
(`Worker.relays_serveTokens`). This holds of every worker, whatever its books are. The serving of
messages has no error of its own, since each request is answered with its error
(`Worker.drainControl_aborts`).

A memory has no reason to give that error. The memory of the host and the scripted one do not
(`HostMemory.unstormed`, `ScriptedMemory.unstormed`).

Key definitions: `Checked.Unstormed`, `Paging.Unstormed`, `Worker.Relays`.
Key theorems: `Worker.relays_bind`, `Worker.relays_handleFault`, `Worker.drainControl_aborts`,
`Worker.relays_serveTokens`.
-/
import DemandPager.Proofs.Causes
import DemandPager.Proofs.Fifo
import DemandPager.Proofs.Registry

namespace DemandPager

variable {π γ α β : Type}

/-! ### Computations -/

/-- The computation does not fail because of interrupted waits. -/
def Checked.Unstormed (x : Checked α) : Prop := ∀ n, x ≠ .error (.error (.interruptStorm n))

namespace Checked.Unstormed

theorem ok (a : α) : Unstormed (.ok a) := fun _ h => by cases h

theorem abort (breach : Breach) : Unstormed (Checked.abort breach : Checked α) :=
  fun _ h => by cases h

theorem unknownAddress (address : Nat) :
    Unstormed (Checked.refuse (.unknownAddress address) : Checked α) := fun _ h => by cases h

theorem bind {x : Checked α} {f : α → Checked β} (hx : x.Unstormed) (hf : ∀ a, (f a).Unstormed) :
    (x >>= f).Unstormed := by
  intro n h
  rcases Checked.bind_eq_error.mp h with hfirst | ⟨a, -, hlater⟩
  · exact hx n hfirst
  · exact hf a n hlater

theorem exact (n : Nat) : (Word.exact n).Unstormed := fun _ h => by cases Word.exact_eq_error h

theorem sub (a b : Nat) : (Word.sub a b).Unstormed := by
  unfold Word.sub
  split
  · exact ok _
  · exact abort _

theorem ceilDiv (x y : Nat) : (Word.ceilDiv x y).Unstormed := by
  unfold Word.ceilDiv
  split
  · exact abort _
  · exact ok _

theorem roundDown (x align : Nat) : (Word.roundDown x align).Unstormed := by
  unfold Word.roundDown
  split
  · exact abort _
  · exact ok _

theorem roundUp (x align : Nat) : (Word.roundUp x align).Unstormed :=
  (ceilDiv x align).bind fun _ => exact _

theorem growTo (b : Buffer) (n : Nat) : (b.growTo n).Unstormed :=
  fun _ h => by cases Buffer.growTo_error h

theorem locate (g : Geometry) (offset : Nat) : (g.locate offset).Unstormed := by
  unfold Geometry.locate
  refine (exact _).bind fun fullBytes => (roundDown _ _).bind fun boundary => ?_
  dsimp only
  split
  · exact ok _
  · exact (exact _).bind fun bytes => (roundUp _ _).bind fun _ => ok _

theorem locateFault (objects : IntervalMap (Object γ)) (address : Nat) :
    (Worker.locateFault objects address).Unstormed := by
  unfold Worker.locateFault
  split
  · exact unknownAddress _
  · refine (exact _).bind fun bodyStart => ?_
    split
    · exact unknownAddress _
    · refine (locate _ _).bind fun found => ?_
      split
      · exact unknownAddress _
      · exact ok _

theorem locateChunk (entry : Interval (Object γ)) (address : Nat) :
    (Worker.locateChunk entry address).Unstormed := by
  unfold Worker.locateChunk
  refine (exact _).bind fun bodyStart => (sub _ _).bind fun offset =>
    (locate _ _).bind fun found => ?_
  split
  · exact unknownAddress _
  · exact ok _

theorem liveBytes (r : Ring) : r.liveBytes.Unstormed := by
  rw [Ring.liveBytes_eq]
  exact exact _

end Checked.Unstormed

/-! ### Memories -/

/-- No call that the serving of faults makes is refused because of interrupted waits. -/
structure Paging.Unstormed (π : Type) [Paging π] : Prop where
  install (start : Nat) (content : Bytes) (n : Nat) :
    Spares (Paging.install start content : EStateM PagerError π Bool) (.interruptStorm n)
  discard (start len n : Nat) :
    Spares (Paging.discard start len : EStateM PagerError π Unit) (.interruptStorm n)
  readResident (start len n : Nat) :
    Spares (Paging.readResident start len : EStateM PagerError π Bytes) (.interruptStorm n)
  readFaults (n : Nat) :
    Spares (Paging.readFaults : EStateM PagerError π (List Nat × Bool)) (.interruptStorm n)

theorem ofCode_ne_interruptStorm {code : Int} {n : Nat} :
    PagerError.ofCode code ≠ .interruptStorm n := fun h => by cases h

theorem HostMemory.unstormed : Paging.Unstormed HostMemory where
  install start content n := by
    have hregistered : Spares (checkRegistered start content.length) (.interruptStorm n) := by
      unfold checkRegistered
      refine spares_bind (spares_modifyGet fun m => (m, m)) fun m => ?_
      dsimp only
      split
      · exact spares_pure ()
      · exact spares_throw ofCode_ne_interruptStorm
    refine spares_bind (spares_checkRange ofCode_ne_interruptStorm _ _) fun _ => ?_
    refine spares_bind hregistered fun _ =>
      spares_bind (spares_modifyGet fun m => (m, m)) fun m => ?_
    exact spares_bind (spares_set _) fun _ => spares_pure _
  discard start len n := by
    show Spares (discardRange start len) _
    unfold discardRange
    split
    · exact spares_bind (spares_throw ofCode_ne_interruptStorm) fun _ => spares_modifyGet _
    · exact spares_modifyGet _
  readResident start len n := spares_modifyGet _
  readFaults n := spares_modifyGet _

theorem ScriptedMemory.unstormed : Paging.Unstormed ScriptedMemory where
  install start content n := by
    refine spares_bind (spares_permit ofCode_ne_interruptStorm .install) fun _ => ?_
    refine spares_bind (spares_modifyGet fun m => (m, m)) fun m => ?_
    split
    · exact spares_pure _
    · exact spares_bind (spares_set _) fun _ => spares_pure _
  discard start len n :=
    spares_bind (spares_permit ofCode_ne_interruptStorm .discard) fun _ => spares_modifyGet _
  readResident start len n :=
    spares_readResident ofCode_ne_interruptStorm (fun _ h => (by cases h)) start len
  readFaults n := by
    refine spares_bind (spares_permit ofCode_ne_interruptStorm .readFaults) fun _ => ?_
    refine spares_bind (spares_modifyGet fun m => (m, m)) fun m => ?_
    exact spares_bind (spares_set _) fun _ => spares_pure _

namespace Worker

variable [Paging π] {w : Worker π γ} {act : WorkerM π γ α}

/-! ### Steps -/

/-- If the step ends because of interrupted waits, the last call was refused with that error, which
the memory can give. -/
def Relays (act : WorkerM π γ α) (w : Worker π γ) : Prop :=
  Ends act w (fun _ _ => True) fun f w' => ∀ n, f = .error (.interruptStorm n) →
    w'.LastRefused (.interruptStorm n) ∧ ¬Paging.Unstormed π

theorem relays_bind {next : α → WorkerM π γ β} (h : Relays act w)
    (hnext : ∀ a v, Relays (next a) v) :
    Relays (act >>= next) w := by
  unfold Relays
  rw [ends_bind]
  exact Ends.mono h (fun a v _ => hnext a v) fun _ _ hf => hf

theorem relays_pure (a : α) : Relays (pure a : WorkerM π γ α) w := trivial

theorem relays_get : Relays (get : WorkerM π γ (Worker π γ)) w := trivial

theorem relays_set (v : Worker π γ) : Relays (set v : WorkerM π γ PUnit) w := trivial

theorem relays_modify (f : Worker π γ → Worker π γ) :
    Relays (modify f : WorkerM π γ PUnit) w := trivial

theorem relays_throw (breach : Breach) : Relays (throw (.abort breach) : WorkerM π γ α) w :=
  fun _ h => by cases h

theorem relays_refuse {cause : PagerError} (h : ∀ n, cause ≠ .interruptStorm n) :
    Relays (refuse cause : WorkerM π γ α) w := by
  rintro n ⟨⟩
  exact absurd rfl (h n)

theorem relays_ensure (holds : Bool) (breach : Breach) :
    Relays (ensure holds breach : WorkerM π γ Unit) w := by
  cases holds with
  | true => exact trivial
  | false => exact relays_throw breach

theorem relays_checked {result : Checked α} (h : result.Unstormed) :
    Relays (checked result : WorkerM π γ α) w := by
  unfold Relays
  rw [ends_checked]
  exact ⟨fun _ _ => trivial, fun f hf n hn => absurd (hn ▸ hf) (h n)⟩

theorem relays_settle {result : Except PagerError α}
    (h : ∀ n, result ≠ .error (.interruptStorm n)) : Relays (settle result : WorkerM π γ α) w := by
  cases result with
  | ok a => exact trivial
  | error cause => exact relays_refuse fun n hn => h n (congrArg Except.error hn)

/-- A refused call is the last one. -/
theorem relays_call {call : EStateM PagerError π α} {entry : Except PagerError α → JournalEntry}
    {next : α → WorkerM π γ β} (hcall : Paging.Unstormed π → ∀ n, Spares call (.interruptStorm n))
    (hentry : ∀ cause, (entry (.error cause)).refusal? = some cause)
    (hnext : ∀ a v, Relays (next a) v) :
    Relays (callPages call entry >>= fun result => settle result >>= next) w := by
  unfold Relays
  rw [ends_bind]
  refine ends_callPages fun result pages hcalled => ?_
  cases result with
  | ok a => exact hnext a _
  | error cause =>
    rintro n ⟨⟩
    refine ⟨⟨_, List.getLast?_concat .., hentry _⟩, fun hmemory => ?_⟩
    exact (hcall hmemory n).called hcalled rfl

theorem relays_checkTotals : Relays (checkTotals : WorkerM π γ Unit) w := by
  unfold checkTotals
  refine relays_bind relays_get fun u v =>
    relays_bind (relays_checked (.liveBytes _)) fun live x => ?_
  exact relays_bind (relays_ensure ..) fun _ _ => relays_ensure ..

theorem relays_recordChunk (record : ChunkRecord) :
    Relays (recordChunk record : WorkerM π γ Unit) w := by
  unfold recordChunk
  refine relays_bind relays_get fun u v => relays_bind (relays_settle ?_) fun ring v => ?_
  · intro n hpush
    cases (Ring.push_eq_error.mp hpush).2
  · refine relays_bind (relays_set _) fun _ v => ?_
    refine relays_bind (relays_checked (.exact _)) fun used v => ?_
    refine relays_bind (relays_modify _) fun _ v => ?_
    exact relays_bind (relays_modify _) fun _ v => relays_checkTotals

theorem relays_fillChunk (object : Object γ) (span : Span) :
    Relays (fillChunk object span : WorkerM π γ Bytes) w := by
  unfold fillChunk
  refine relays_bind (relays_modify _) fun _ v => relays_bind relays_get fun u v => ?_
  refine relays_bind (relays_set _) fun _ v => ?_
  split
  · exact relays_refuse fun n h => by cases h
  · exact relays_throw _
  · refine relays_bind (relays_modify _) fun _ v => relays_bind (relays_modify _) fun _ v => ?_
    exact relays_bind relays_get fun _ _ => relays_pure _

theorem relays_handOver (object : Object γ) (span : Span) (bytes : Bytes) :
    Relays (handOver object span bytes : WorkerM π γ Unit) w := by
  unfold handOver
  split
  · exact relays_pure _
  · refine relays_bind (relays_modify _) fun _ v => relays_bind relays_get fun u v => ?_
    exact relays_bind (relays_set _) fun _ v => relays_ensure ..

/-! ### Faults -/

theorem relays_spillResident (address len : Nat) :
    Relays (spillResident address len : WorkerM π γ Bytes) w := by
  unfold spillResident
  refine relays_bind relays_get fun u v =>
    relays_bind (relays_checked (.growTo _ _)) fun spill v => ?_
  refine relays_bind (relays_modify _) fun _ v => ?_
  refine relays_call (fun h n => h.readResident _ _ n) (fun _ => rfl) fun bytes v => ?_
  exact relays_bind (relays_modify _) fun _ v => relays_bind relays_get fun _ _ => relays_pure _

theorem relays_writeBackChunk (address : Nat) :
    Relays (writeBackChunk address : WorkerM π γ Unit) w := by
  unfold writeBackChunk
  refine relays_bind relays_get fun u v => ?_
  split
  · exact relays_refuse fun n h => by cases h
  · split
    · refine relays_bind (relays_checked (.locateChunk _ _)) fun chunk v => ?_
      refine relays_bind (relays_ensure ..) fun _ v => ?_
      refine relays_bind (relays_spillResident ..) fun bytes v => ?_
      exact relays_bind (relays_handOver ..) fun _ v => relays_modify _
    · exact relays_pure _

theorem relays_dropChunk (record : ChunkRecord) :
    Relays (dropChunk record : WorkerM π γ Unit) w := by
  unfold dropChunk
  refine relays_bind relays_get fun u v => relays_bind (relays_checked (.sub _ _)) fun used v => ?_
  refine relays_bind (relays_modify _) fun _ v => ?_
  refine relays_call (fun h n => h.discard _ _ n) (fun _ => rfl) fun _ v => ?_
  exact relays_bind (relays_modify _) fun _ v => relays_checkTotals

theorem relays_dropOldest : Relays (dropOldest : WorkerM π γ Unit) w := by
  unfold dropOldest
  refine relays_bind relays_get fun u v => relays_bind (relays_settle ?_) fun popped v => ?_
  · intro n hpop
    unfold Ring.pop at hpop
    split at hpop
    · cases hpop
    · split at hpop <;> cases hpop
  · refine relays_bind (relays_modify _) fun _ v => ?_
    split
    · exact relays_bind (relays_writeBackChunk _) fun _ v => relays_dropChunk _
    · exact relays_pure _

theorem relays_dropWhileCrowded (fill : Nat) : ∀ (records : Nat) (w : Worker π γ),
    Relays (dropWhileCrowded fill records : WorkerM π γ Unit) w
  | 0, w => by
    unfold dropWhileCrowded
    refine relays_bind relays_get fun u v => ?_
    split
    · exact relays_refuse fun n h => by cases h
    · exact relays_pure _
  | records + 1, w => by
    unfold dropWhileCrowded
    refine relays_bind relays_get fun u v => ?_
    split
    · exact relays_bind relays_dropOldest fun _ v => relays_dropWhileCrowded fill records v
    · exact relays_pure _

theorem relays_evictFor (fill : Nat) : Relays (evictFor fill : WorkerM π γ Unit) w := by
  unfold evictFor
  refine relays_bind relays_get fun u v =>
    relays_bind (relays_checked (.exact _)) fun needed v => ?_
  split
  · exact relays_dropWhileCrowded ..
  · exact relays_pure _

theorem relays_loadChunk (site : FaultSite γ) : Relays (loadChunk site : WorkerM π γ Unit) w := by
  unfold loadChunk
  refine relays_bind (relays_fillChunk ..) fun content v => ?_
  refine relays_bind (relays_checked (.exact _)) fun start v => ?_
  refine relays_call (fun h n => h.install _ _ n) (fun _ => rfl) fun installed v => ?_
  split
  · exact relays_recordChunk _
  · exact relays_modify _

/-- **A fault makes up no error about waits.** -/
theorem relays_handleFault (address : Nat) : Relays (handleFault address : WorkerM π γ Unit) w := by
  unfold handleFault
  refine relays_bind (relays_modify _) fun _ v => relays_bind relays_get fun u v => ?_
  refine relays_bind (relays_checked (.locateFault _ _)) fun site v => ?_
  have hload : ∀ v : Worker π γ, Relays (do
      set { u with scratch := ← checked (u.scratch.growTo site.span.bytes) }
      evictFor site.span.bytes
      loadChunk site) v := by
    intro v
    refine relays_bind (relays_checked (.growTo _ _)) fun scratch v => ?_
    refine relays_bind (relays_set _) fun _ v => ?_
    exact relays_bind (relays_evictFor _) fun _ v => relays_loadChunk _
  dsimp only
  split
  · exact relays_bind (relays_refuse fun n h => by cases h) fun _ v => hload v
  · exact hload v

theorem relays_handleFaults : ∀ (addresses : List Nat) (w : Worker π γ),
    Relays (handleFaults addresses : WorkerM π γ Unit) w
  | [], _ => relays_pure _
  | address :: rest, _ =>
    relays_bind (relays_handleFault address) fun _ v => relays_handleFaults rest v

theorem relays_serveFaults : Relays (serveFaults : WorkerM π γ Unit) w := by
  unfold serveFaults
  refine relays_call (·.readFaults) (fun _ => rfl) fun reports v => ?_
  refine relays_bind (relays_handleFaults ..) fun _ v => ?_
  split
  · exact relays_refuse fun n h => by cases h
  · exact relays_pure _

/-! ### Messages -/

theorem serveMessage_aborts (m : Message γ) (w : Worker π γ) :
    Ends (serveMessage m) w (fun flow w' => flow = .stop → w'.phase ≠ .running)
      fun f _ => ∃ breach, f = .abort breach := by
  have hrequest : ∀ (ticket : Nat) (act : WorkerM π γ Answer), Ends (serveRequest ticket act) w
      (fun flow w' => flow = .stop → w'.phase ≠ .running)
        fun f _ => ∃ breach, f = .abort breach := by
    intro ticket act
    have hact : Ends (attempt act) { w with journal := w.journal ++ [.serve ticket] }
        (fun _ _ => True) fun _ _ => True :=
      .of_forall (fun _ _ => trivial) fun _ _ => trivial
    unfold serveRequest
    rw [ends_bind, ends_note, ends_bind]
    refine hact.exactly.mono (fun result v _ => ?_) fun f v hf => abort_of_attempt hf.1
    cases result <;> exact fun h => by cases h
  cases m with
  | allocate object ticket => exact hrequest ..
  | free id start ticket => exact hrequest ..
  | shutdown => exact fun _ h => by cases h

theorem serveMessages_aborts : ∀ (n : Nat) (w : Worker π γ),
    Ends (serveMessages n) w (fun flow w' => flow = .stop → w'.phase ≠ .running)
      fun f _ => ∃ breach, f = .abort breach
  | 0, _ => fun h => by cases h
  | n + 1, w => by
    unfold serveMessages nextMessage
    rw [ends_bind, ends_bind, ends_get]
    cases w.exchange.channel.next with
    | none => exact fun h => by cases h
    | some taken =>
      obtain ⟨message, channel⟩ := taken
      show Ends (serveMessage message >>= _) (w.onExchange fun x => { x with channel }) _ _
      rw [ends_bind]
      refine (serveMessage_aborts message _).mono (fun flow v hv => ?_) fun _ _ h => h
      cases flow with
      | stop => exact hv
      | proceed => exact serveMessages_aborts n v

/-- **The serving of messages has no error of its own**, and it stops only if the worker is asked to
shut down. -/
theorem drainControl_aborts (w : Worker π γ) :
    Ends drainControl w (fun flow w' => flow = .stop → w'.phase ≠ .running)
      fun f _ => ∃ breach, f = .abort breach :=
  serveMessages_aborts _ w

theorem relays_answerBell (bell : Except IoCause Unit) :
    Relays (answerBell bell : WorkerM π γ Unit) w := by
  cases bell with
  | ok u => exact relays_modify _
  | error cause => exact relays_refuse fun n h => by cases h

/-- **To serve tokens makes up no error about waits.** -/
theorem relays_serveTokens (bell : Except IoCause Unit) : ∀ (tokens : List Nat) (w : Worker π γ),
    Relays (serveTokens bell tokens : WorkerM π γ Unit) w
  | [], _ => relays_pure _
  | token :: rest, w => by
    unfold serveTokens
    split
    · exact relays_bind relays_serveFaults fun _ v => relays_serveTokens bell rest v
    · split
      · refine relays_bind (relays_answerBell bell) fun _ v => relays_bind ?_ fun flow u => ?_
        · refine (drainControl_aborts v).mono (fun _ _ _ => trivial) ?_
          rintro _ _ ⟨breach, rfl⟩ n h
          cases h
        · cases flow with
          | stop => exact relays_pure _
          | proceed => exact relays_serveTokens bell rest u
      · exact relays_serveTokens bell rest w

end Worker
end DemandPager
