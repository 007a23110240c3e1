import BmCore.Dfu.Resources

/-!
# The error state that is not left

An error code from `flashAccess` on keeps the machine in the error state for good. On this node such
a code stands for a failure of its own flash hooks or of its stream buffer. A host also takes over
the code that an Ack or an Abort of its client carries, whatever it is.
-/
namespace BmCore.Dfu
open Library

/-- A call of the flash hooks or of the stream buffer of this node that failed. -/
def Effect.isFault : Effect → Bool
  | .flashAreaOpen r | .flashAreaErase _ _ r | .flashAreaWrite _ _ r | .hostGetChunk _ _ r
  | .streamBufferReceive r => r != .ok
  | .streamBufferCreate ok => !ok
  | _ => false

/-- The faults so far. -/
def World.faults (w : World) : Nat := (w.seen Effect.isFault).length

def Effect.isStreamCreate : Effect → Bool
  | .streamBufferCreate _ => true
  | _ => false

/-- The attempts to create a stream buffer, latest first. -/
def World.streams (w : World) : List Effect := w.seen Effect.isStreamCreate

/-- The last attempt to create a stream buffer has failed. -/
def World.streamMissing (w : World) : Prop := w.streams.head? = some (.streamBufferCreate false)

/-- The frame of the event ends the session of a host with a fatal error code. -/
def fatalVerdict (env : Env) (w : World) (evt : BmDfuEvent) : Bool :=
  match w.core.currentState, evt.type, evt.buf with
  | .hostReqUpdate, .ackReceived, some buf => resultSuccess env.beyond buf.bytes == 0 &&
    BmDfuErr.flashAccess.code ≤ (resultErrCode env.beyond buf.bytes).code
  | .hostReqUpdate, .abort, some buf | .hostUpdate, .abort, some buf =>
    BmDfuErr.flashAccess.code ≤ (resultErrCode env.beyond buf.bytes).code
  | _, _, _ => false

/-- The condition on an action. -/
def NoFatalVerdict (env : Env) (w : World) (a : Action) : Prop :=
  a = .turn → ∀ evt ∈ w.queue.head?, fatalVerdict env w evt = false

instance (env : Env) (w : World) (a : Action) : Decidable (NoFatalVerdict env w a) :=
  inferInstanceAs (Decidable (_ → ∀ evt ∈ w.queue.head?, _))

/-! ## Errors that are left again -/

/-- A pending change to the error state comes with an error that is left again. -/
def Mild (c : DfuCoreCtx) : Prop :=
  c.pendingStateChange = true → c.newState = .error → c.error.code < BmDfuErr.flashAccess.code

section
variable {w : World} {c d : DfuCoreCtx}

theorem Mild.of_eq (h : Mild c) (hd : d = c) : Mild d := by
  rw [hd]
  exact h

theorem Mild.of_not_pending (h : c.pendingStateChange = false) : Mild c := by
  intro hp
  rw [h] at hp
  cases hp

theorem mild_setPending {s : BmDfuState} (hs : s ≠ .error) (w : World) :
    Mild (bmDfuSetPendingStateChange s w).core := by
  intro _ hn
  simp only [setPending_core] at hn
  exact absurd hn hs

theorem mild_clientError (env : Env) {err : BmDfuErr} (he : err.code < BmDfuErr.flashAccess.code)
    (w : World) : Mild (bmDfuClientTransitionToError env err w).core := by
  intro _ _
  simpa using he

theorem mild_hostError (env : Env) {err : BmDfuErr} (he : err.code < BmDfuErr.flashAccess.code)
    (w : World) : Mild (bmDfuHostTransitionToError env err w).core := by
  intro _ _
  simpa using he

theorem mild_clientTimerErrCheck (env : Env) {call : BmErr × World} (h : Mild call.2.core) :
    Mild (clientTimerErrCheck env call).2.core := by
  unfold clientTimerErrCheck
  split
  · exact mild_clientError env (by decide) _
  · exact h

theorem mild_hostTimerErrCheck (env : Env) {call : BmErr × World} (h : Mild call.2.core) :
    Mild (hostTimerErrCheck env call).2.core := by
  unfold hostTimerErrCheck
  split
  · exact mild_hostError env (by decide) _
  · exact h

end

/-! ## Client run functions -/

section Client
variable (env : Env) {w : World}

theorem mild_nextChunk (h : Mild w.core) : Mild (clientNextChunk env w).2.core := by
  unfold clientNextChunk
  dsimp only
  split
  · exact mild_clientTimerErrCheck env (h.of_eq (by simp))
  · split
    · exact mild_clientError env (by decide) _
    · exact mild_setPending (by decide) _

theorem mild_acceptChunk (payload : List UInt8) (h : Mild w.core) :
    Mild (clientAcceptChunk env payload w).2.core := by
  have hpay := (bmDfuProcessPayload_frame env payload (w.withClient { w.client with
    chunkLength := payload.length
    runningCrc16 := crc16Ccitt w.client.runningCrc16 payload })).core
  unfold clientAcceptChunk
  dsimp only
  refine mild_nextChunk env ?_
  split
  · exact mild_clientError env (by decide) _
  · exact h.of_eq hpay

theorem mild_receivingRun (h : Mild w.core) : Mild (sClientReceivingRun env w).2.core := by
  unfold sClientReceivingRun clientChunkTimeout clientResync
  dsimp only
  split
  · split
    · exact h
    · split
      · exact mild_clientError env (by decide) _
      · exact mild_acceptChunk env _ (h.of_eq (by simp))
  · split
    · exact mild_clientError env (by decide) _
    · exact mild_clientTimerErrCheck env (h.of_eq (by simp))
  · split
    · exact mild_clientError env (by decide) _
    · exact mild_clientTimerErrCheck env (h.of_eq (by simp))
  · exact mild_clientTimerErrCheck env (h.of_eq (by simp))
  · exact h

theorem mild_rebootReqRun (h : Mild w.core) : Mild (sClientRebootReqRun env w).2.core := by
  unfold sClientRebootReqRun
  dsimp only
  split
  · exact mild_setPending (by decide) _
  · exact h
  · split
    · exact mild_clientError env (by decide) _
    · exact h.of_eq (by simp)
  · exact h

theorem mild_updateDoneRun (h : Mild w.core) : Mild (sClientUpdateDoneRun env w).2.core := by
  unfold sClientUpdateDoneRun bmDfuClientFailUpdateAndReboot
  dsimp only
  split
  · exact mild_setPending (by decide) _
  · exact h
  · split <;> exact h.of_eq (by simp)
  · exact h

theorem mild_validatingEntry (w : World) : Mild (sClientValidatingEntry env w).2.core := by
  unfold sClientValidatingEntry
  dsimp only
  split
  · exact mild_clientError env (by decide) _
  · split
    · exact mild_setPending (by decide) _
    · exact mild_clientError env (by decide) _

end Client

/-! ## Whose fault it is -/

/-- A change to the error state that is asked for between `w` and `u` is left again, or this node is
at fault: a call has failed, or the stream buffer of the session is not there. -/
def Local (w u : World) : Prop :=
  Mild u.core ∨ w.faults < u.faults ∨
    w.core.currentState = .hostUpdate ∧ w.core.internal = false ∧ w.host.dataQueue = none

section Faults
variable {w u : World}

theorem faults_mono (h : w.log <:+ u.log) : w.faults ≤ u.faults := (h.filter _).length_le

@[simp] theorem faults_emit (w : World) (e : Effect) :
    (w.emit e).faults = w.faults + if e.isFault then 1 else 0 := by
  unfold World.faults World.seen
  rw [emit_log, List.filter_cons]
  split <;> rfl

theorem faults_lt_emit (w : World) {e : Effect} (he : e.isFault = true) :
    w.faults < (w.emit e).faults := by
  simp [he]

@[simp] theorem faults_withFlash (w : World) (f : Nat → UInt8) :
    (w.withFlash f).faults = w.faults :=
  rfl
@[simp] theorem faults_withClient (w : World) (c : DfuClientCtx) :
    (w.withClient c).faults = w.faults := rfl
@[simp] theorem faults_withHost (w : World) (h : DfuHostCtx) :
    (w.withHost h).faults = w.faults := rfl

theorem local_prepareSlot (env : Env) (info : BmDfuImgInfo) (h : Mild w.core) :
    Mild (clientPrepareSlot env info w).core ∨
    w.faults < (clientPrepareSlot env info w).faults := by
  unfold clientPrepareSlot
  dsimp only
  split
  · split
    next hfail =>
      right
      refine lt_of_lt_of_le ?_ (faults_mono (clientOnly_error env _ _).log)
      simp only [flashAreaErase_fst] at hfail
      simp [Effect.isFault, hfail]
    · exact .inl (mild_setPending (by decide) _)
  · exact .inl (h.of_eq (by simp))

theorem local_takeStart (env : Env) (info : BmDfuImgInfo) (h : Mild w.core) :
    Mild (clientTakeStart env info w).core ∨ w.faults < (clientTakeStart env info w).faults := by
  have hdiv : w.faults ≤ (recordDivision info w).faults :=
    faults_mono (clientOnly_division w info).log
  unfold clientTakeStart
  dsimp only
  split
  next hfail =>
    right
    refine lt_of_le_of_lt hdiv (lt_of_lt_of_le ?_ (faults_mono (clientOnly_error env _ _).log))
    simp only [flashAreaOpen_fst, withClient_log] at hfail
    simp [Effect.isFault, hfail]
  · refine Or.imp id (fun hlt => ?_) (local_prepareSlot env info (h.of_eq (by simp)))
    refine lt_of_le_of_lt hdiv (lt_of_le_of_lt ?_ hlt)
    simp

theorem local_processUpdateRequest (env : Env) (h : Mild w.core) :
    Mild (bmDfuClientProcessUpdateRequest env w).core ∨
      w.faults < (bmDfuClientProcessUpdateRequest env w).faults := by
  cases hbuf : w.core.currentEvent.buf with
  | none =>
    have hsame : bmDfuClientProcessUpdateRequest env w = w := by
      simp only [bmDfuClientProcessUpdateRequest, bmDfuGetCurrentEvent, hbuf]
    rw [hsame]
    exact .inl h
  | some buf =>
    simp only [bmDfuClientProcessUpdateRequest, bmDfuGetCurrentEvent, hbuf]
    generalize hu : w.withClient _ = u
    have hmild : Mild u.core := h.of_eq (by rw [← hu, withClient_core])
    have hfaults : w.faults = u.faults := by rw [← hu, faults_withClient]
    rw [hfaults]
    split
    · split
      · exact .inl (mild_clientError env (by decide) _)
      · exact local_takeStart env _ hmild
    · exact .inl (hmild.of_eq (by simp))

theorem local_idleRun (env : Env) (h : Mild w.core) : Local w (sIdleRun env w).2 := by
  unfold sIdleRun
  dsimp only
  split
  · exact (local_processUpdateRequest env h).imp_right .inl
  · exact .inl (mild_setPending (by decide) _)
  · exact .inl h

/-- A chunk that cannot be supplied. -/
theorem fillChunk_local (env : Env) (len : Nat) (w : World)
    (hfail : (fillChunk env len w).1 ≠ .ok) :
    w.faults < (fillChunk env len w).2.2.2.faults ∨
      w.core.internal = false ∧ w.host.dataQueue = none := by
  cases hint : w.core.internal with
  | true =>
    left
    simp only [fillChunk, bmDfuInternal, hint, if_pos] at hfail ⊢
    exact faults_lt_emit w (bne_iff_ne.mpr hfail)
  | false =>
    cases hdata : w.host.dataQueue with
    | none => exact .inr ⟨rfl, rfl⟩
    | some data =>
      left
      simp only [fillChunk, bmDfuInternal, hint, hdata, Bool.false_eq_true, if_false] at hfail ⊢
      simp [Effect.isFault, hfail]

theorem local_sendChunk (env : Env) (req : List UInt8) (h : Mild w.core) :
    Mild (bmDfuHostSendChunk env req w).2.core ∨
    w.faults < (bmDfuHostSendChunk env req w).2.faults ∨
      w.core.internal = false ∧ w.host.dataQueue = none := by
  have hfill := fillChunk_core env (chunkPayloadLen w.host) (bmMalloc env w).2
  have hlog := faults_mono (hostOnly_fillChunk env (bmMalloc env w).2 (chunkPayloadLen w.host)).log
  unfold bmDfuHostSendChunk bmFree
  dsimp only
  split
  · exact .inl (h.of_eq (by simp))
  · split
    next hfail =>
      rcases fillChunk_local env _ _ hfail with hlt | hnone
      · right; left
        refine lt_of_lt_of_le hlt ?_
        exact faults_mono ((hostOnly_error env _ _).log.trans (List.suffix_cons _ _))
      · exact .inr (.inr hnone)
    · split
      · exact .inl (h.of_eq hfill)
      · exact .inl (mild_hostError env (by decide) _)

theorem local_reqUpdateRun (env : Env) (h : Mild w.core) (hs : w.core.currentState = .hostReqUpdate)
    (hno : fatalVerdict env w w.core.currentEvent = false) :
    Local w (sHostReqUpdateRun env w).2 := by
  left
  unfold sHostReqUpdateRun abortErr
  dsimp only [bmDfuGetCurrentEvent]
  split
  next htype =>
    split
    · exact mild_hostError env (by decide) _
    · split
      next buf hbuf =>
        split
        · exact mild_setPending (by decide) _
        next hsuccess =>
          apply mild_hostError
          simpa [fatalVerdict, hs, htype, hbuf, not_not.mp hsuccess] using hno
      · exact h.of_eq (by simp)
  · split
    · exact mild_hostError env (by decide) _
    · exact mild_hostTimerErrCheck env (h.of_eq (by simp))
  next htype =>
    apply mild_hostError
    split
    next buf hbuf => simpa [fatalVerdict, hs, htype, hbuf] using hno
    · decide
  · exact h

theorem local_hostUpdateRun (env : Env) (h : Mild w.core) (hs : w.core.currentState = .hostUpdate)
    (hno : fatalVerdict env w w.core.currentEvent = false) :
    Local w (sHostUpdateRun env w).2 := by
  unfold sHostUpdateRun abortErr
  dsimp only [bmDfuGetCurrentEvent]
  split
  · split
    next buf _ =>
      split
      · exact .inl (mild_hostError env (by decide) _)
      · generalize hv : (bmTimerStart env .heartbeat w).2 = v
        have hmild : Mild v.core := h.of_eq (by rw [← hv]; rfl)
        have hfaults : v.faults = w.faults := by
          rw [← hv]
          simp [Effect.isFault]
        rcases local_sendChunk env buf.bytes hmild with hsent | hlt | hnone
        · exact .inl (mild_hostTimerErrCheck env hsent)
        · right; left
          rw [← hfaults]
          refine lt_of_lt_of_le hlt (faults_mono ?_)
          exact (List.suffix_cons _ _).trans
            (hostOnly_timerErrCheck env (bmTimerStop env .heartbeat _)).log
        · right; right
          rw [← hv] at hnone
          exact ⟨hs, hnone⟩
    · exact .inl h
  · exact .inl (h.of_eq (by simp))
  · split
    · exact .inl (h.of_eq (by simp))
    · exact .inl h
  · split
    · exact .inl (mild_hostError env (by decide) _)
    · split
      · exact .inl (mild_setPending (by decide) _)
      · exact .inl (h.of_eq (by simp))
  next htype =>
    left
    apply mild_hostError
    split
    next buf hbuf => simpa [fatalVerdict, hs, htype, hbuf] using hno
    · decide
  · exact .inl h

/-- A run function asks for the fatal error state only after a fault of this node. -/
theorem run_local (env : Env) (h : Mild w.core)
    (hno : fatalVerdict env w w.core.currentEvent = false) :
    Local w ((dfuStates env w.core.currentState).run w).2 := by
  cases hs : w.core.currentState with
  | init =>
    left
    simp only [dfuStates, sInitRun]
    split
    · split <;> exact mild_setPending (by decide) _
    · exact h
  | idle => exact local_idleRun env h
  | error | clientValidating | clientActivating => exact .inl h
  | clientReceiving => exact .inl (mild_receivingRun env h)
  | clientRebootReq => exact .inl (mild_rebootReqRun env h)
  | clientRebootDone => exact .inl (mild_updateDoneRun env h)
  | hostReqUpdate => exact local_reqUpdateRun env h hs hno
  | hostUpdate => exact local_hostUpdateRun env h hs hno

end Faults

/-! ## One step -/

section Step
variable {env : Env} {w : World} {evt : BmDfuEvent}

/-- What an entry function asks for is mild. -/
theorem moved_mild (env : Env) (u : World) : Mild (u.moved env).core := by
  intro hp hn
  have hmem : (u.moved env).core.newState ∈ entryStates u.core.newState := by
    rcases (moved_asks env u).target hp with ⟨hpend, -⟩ | hmem
    · cases hpend
    · exact hmem
  rw [hn] at hmem
  have hstate : u.core.newState = .clientValidating := by
    revert hmem
    cases u.core.newState <;> simp [entryStates]
  have hcur : u.core.currentState ≠ .hostUpdate ∨ u.core.currentState = .hostUpdate := ne_or_eq _ _
  rcases hcur with hcur | hcur
  · rw [moved_eq env hcur, hstate] at hp hn ⊢
    exact mild_validatingEntry env _ hp hn
  · rw [moved_eq_of_hostUpdate env hcur, hstate] at hp hn ⊢
    exact mild_validatingEntry env _ hp hn

/-- An error that is left again does not end in the fatal error state. -/
theorem moved_not_fatal (env : Env) {u : World} (hu : Mild u.core)
    (hp : u.core.pendingStateChange = true) : ¬ (u.moved env).fatal := by
  rintro ⟨hstate, hpend⟩
  rw [moved_currentState] at hstate
  have hentry : ∀ v : World, v.core.error = u.core.error →
      (sErrorEntry v).2.core.pendingStateChange = true := by
    intro v hv
    unfold sErrorEntry
    dsimp only
    rw [coreUpdateFinish_core, hv, if_pos (hu hp hstate)]
    simp
  by_cases hcur : u.core.currentState = .hostUpdate
  · rw [moved_eq_of_hostUpdate env hcur, hstate] at hpend
    refine absurd (hpend.symm.trans (hentry _ ?_)) (by decide)
    show (sHostUpdateExit u).2.core.error = u.core.error
    rw [hostUpdateExit_core]
  · rw [moved_eq env hcur, hstate] at hpend
    exact absurd (hpend.symm.trans (hentry _ rfl)) (by decide)

/-- A step into the fatal error state. -/
theorem consume_local (hw : Settled w) (hmild : Mild w.core) (hno : fatalVerdict env w evt = false)
    (hwf : ¬ w.fatal) (hf : (consume env evt w).fatal) :
    w.faults < (consume env evt w).faults ∨
      w.core.currentState = .hostUpdate ∧ w.core.internal = false ∧ w.host.dataQueue = none := by
  have hlocal : Local (w.withEvent evt) (w.afterRun env evt) := run_local env hmild hno
  obtain ⟨hs, ⟨hp, hu⟩ | ⟨hp, -, hu⟩⟩ := consume_cases env evt hw
  · rw [hu] at hf
    have herr : w.core.currentState = .error := hs.symm.trans hf.1
    have hsame : w.afterRun env evt = w.withEvent evt := by
      simp [World.afterRun, herr, dfuStates, sErrorRun]
    rw [hsame] at hp
    exact absurd ⟨herr, hp⟩ hwf
  · rw [hu] at hf ⊢
    rcases hlocal with hm | hlt | hnone
    · exact absurd hf (moved_not_fatal env hm hp)
    · exact .inl (lt_of_lt_of_le hlt (faults_mono (moved_grows env _).log))
    · exact .inr hnone

theorem consume_mild (hw : Settled w) : Mild (consume env evt w).core := by
  obtain ⟨-, ⟨hp, hu⟩ | ⟨-, -, hu⟩⟩ := consume_cases env evt hw
  · rw [hu]
    exact .of_not_pending hp
  · rw [hu]
    exact moved_mild env _

end Step

/-! ## The stream buffer of a session -/

section Streams
variable (env : Env) (w : World)

@[simp] theorem streams_emit {e : Effect} (he : e.isStreamCreate = false) :
    (w.emit e).streams = w.streams := by
  simp [World.streams, World.seen, he]

@[simp] theorem streams_withHost (h : DfuHostCtx) : (w.withHost h).streams = w.streams := rfl

@[simp] theorem streams_setPending (s : BmDfuState) :
    (bmDfuSetPendingStateChange s w).streams = w.streams := by
  simp [World.streams, World.seen]

@[simp] theorem streams_hostError (err : BmDfuErr) :
    (bmDfuHostTransitionToError env err w).streams = w.streams :=
  hostError_seen env err w fun _ _ => rfl

/-- The session keeps its stream buffer, or goes on without one. -/
structure KeepsStream (w u : World) : Prop where
  dataQueue : u.host.dataQueue = none ↔ w.host.dataQueue = none
  streams : u.streams = w.streams

variable {w}

theorem KeepsStream.trans {u v : World} (h : KeepsStream w u) (g : KeepsStream u v) :
    KeepsStream w v := ⟨g.dataQueue.trans h.dataQueue, g.streams.trans h.streams⟩

theorem KeepsStream.refl (w : World) : KeepsStream w w := ⟨.rfl, rfl⟩

theorem keepsStream_emit {e : Effect} (he : e.isStreamCreate = false) (w : World) :
    KeepsStream w (w.emit e) := ⟨.rfl, streams_emit w he⟩

theorem keepsStream_hostError (err : BmDfuErr) (w : World) :
    KeepsStream w (bmDfuHostTransitionToError env err w) := ⟨by simp, by simp⟩

theorem keepsStream_setPending (s : BmDfuState) (w : World) :
    KeepsStream w (bmDfuSetPendingStateChange s w) := ⟨by simp, by simp⟩

theorem keepsStream_timerErrCheck (call : BmErr × World) :
    KeepsStream call.2 (hostTimerErrCheck env call).2 := by
  unfold hostTimerErrCheck
  split
  · exact keepsStream_hostError env _ _
  · exact .refl _

theorem keepsStream_fillChunk (len : Nat) (w : World) :
    KeepsStream w (fillChunk env len w).2.2.2 := by
  unfold fillChunk
  dsimp only
  split
  · exact keepsStream_emit rfl w
  · split
    next data hdata => exact ⟨by simp [hdata], rfl⟩
    · exact .refl w

theorem keepsStream_sendChunk (req : List UInt8) (w : World) :
    KeepsStream w (bmDfuHostSendChunk env req w).2 := by
  have hfill : KeepsStream w (fillChunk env (chunkPayloadLen w.host) (bmMalloc env w).2).2.2.2 :=
    (keepsStream_emit rfl w).trans (keepsStream_fillChunk env _ _)
  unfold bmDfuHostSendChunk bmFree
  dsimp only
  split
  · exact keepsStream_emit rfl w
  · split
    · exact (hfill.trans (keepsStream_hostError env _ _)).trans (keepsStream_emit rfl _)
    · split
      · exact hfill.trans ⟨.rfl, rfl⟩
      · refine KeepsStream.trans ?_ (keepsStream_emit rfl _)
        exact (hfill.trans (keepsStream_emit rfl _)).trans (keepsStream_hostError env _ _)

theorem keepsStream_reqUpdateRun (w : World) : KeepsStream w (sHostReqUpdateRun env w).2 := by
  unfold sHostReqUpdateRun
  dsimp only
  split
  · have hstop := keepsStream_emit (e := .timerStop .ack (env.timerStop w.log.length)) rfl w
    split
    · exact hstop.trans (keepsStream_hostError env _ _)
    · split
      · split
        · exact hstop.trans (keepsStream_setPending _ _)
        · exact hstop.trans (keepsStream_hostError env _ _)
      · exact hstop
  · split
    · refine KeepsStream.trans ?_ (keepsStream_hostError env _ _)
      exact ⟨.rfl, rfl⟩
    · refine KeepsStream.trans ?_ (keepsStream_timerErrCheck env _)
      exact ⟨.rfl, rfl⟩
  · exact keepsStream_hostError env _ w
  · exact .refl w

theorem keepsStream_hostUpdateRun (w : World) : KeepsStream w (sHostUpdateRun env w).2 := by
  unfold sHostUpdateRun
  dsimp only
  split
  · split
    next buf _ =>
      have hstart := keepsStream_emit
        (e := .timerStart .heartbeat (env.timerStart w.log.length)) rfl w
      split
      · exact hstart.trans (keepsStream_hostError env _ _)
      · refine KeepsStream.trans ?_ (keepsStream_timerErrCheck env _)
        exact (hstart.trans (keepsStream_sendChunk env buf.bytes _)).trans (keepsStream_emit rfl _)
    · exact .refl w
  · exact keepsStream_emit rfl w
  · split
    · exact keepsStream_emit rfl w
    · exact .refl w
  · have hstop := keepsStream_emit (e := .timerStop .update (env.timerStop w.log.length)) rfl w
    split
    · exact hstop.trans (keepsStream_hostError env _ _)
    · split
      · refine hstop.trans (KeepsStream.trans ?_ (keepsStream_setPending _ _))
        unfold hostUpdateComplete
        split
        · exact keepsStream_emit rfl _
        · exact .refl _
      · exact hstop
  · exact keepsStream_hostError env _ w
  · exact .refl w

theorem afterRun_keepsStream (evt : BmDfuEvent)
    (hs : w.core.currentState ∈ [.hostReqUpdate, .hostUpdate]) :
    KeepsStream w (w.afterRun env evt) := by
  have hevent : KeepsStream w (w.withEvent evt) := ⟨.rfl, rfl⟩
  unfold World.afterRun
  simp only [List.mem_cons, List.not_mem_nil, or_false] at hs
  rcases hs with hs | hs
  · rw [hs]
    exact hevent.trans (keepsStream_reqUpdateRun env _)
  · rw [hs]
    exact hevent.trans (keepsStream_hostUpdateRun env _)

/-- A streamed session that starts without a stream buffer has failed to create one. -/
theorem reqUpdateEntry_streamMissing {buf : BmDfuBuf} (hbuf : w.core.currentEvent.buf = some buf)
    (hint : w.core.internal = false) (hnone : (sHostReqUpdateEntry env w).2.host.dataQueue = none) :
    (sHostReqUpdateEntry env w).2.streamMissing := by
  have hstreams : (sHostReqUpdateEntry env w).2.streams =
      .streamBufferCreate (env.streamBufferCreate (w.log.length + 1)) :: w.streams := by
    simp only [sHostReqUpdateEntry, bmDfuGetCurrentEvent, hbuf, bmDfuInternal,
      bmDfuHostReqUpdate_eq,
      emit_core, withHost_core, hint, Bool.false_eq_true, not_false_eq_true, if_true]
    rfl
  have hfailed : env.streamBufferCreate (w.log.length + 1) = false := by
    cases hok : env.streamBufferCreate (w.log.length + 1) with
    | false => rfl
    | true => simp [reqUpdateEntry_dataQueue hbuf hint, hok] at hnone
  rw [World.streamMissing, hstreams, hfailed]
  rfl

theorem keepsStream_hostUpdateEntry (w : World) : KeepsStream w (sHostUpdateEntry env w).2 := by
  unfold sHostUpdateEntry bmDfuHostStartUpdateTimer
  dsimp only
  split
  · exact keepsStream_emit rfl w
  · split <;> exact ⟨.rfl, rfl⟩

end Streams

/-! ## Runs -/

/-- What is known between actions. -/
structure FatalInv (w : World) : Prop where
  settled : Settled w
  mild : Mild w.core
  source : w.core.currentState ∈ [.hostReqUpdate, .hostUpdate] → w.core.internal = false →
    w.host.dataQueue = none → w.streamMissing

section Run
variable {env : Env} {w : World} {evt : BmDfuEvent}

theorem FatalInv.source_stay (h : FatalInv w)
    (hs : w.core.currentState ∈ [.hostReqUpdate, .hostUpdate])
    (hint : (w.afterRun env evt).core.internal = false)
    (hnone : (w.afterRun env evt).host.dataQueue = none) : (w.afterRun env evt).streamMissing := by
  have hkeep := afterRun_keepsStream env evt hs
  have hsame : (w.afterRun env evt).core.internal = w.core.internal :=
    (run_asks env (w.withEvent evt)).internal
  unfold World.streamMissing
  rw [hkeep.streams]
  exact h.source hs (hsame.symm.trans hint) (hkeep.dataQueue.mp hnone)

theorem FatalInv.source_move (h : FatalInv w)
    (hp : (w.afterRun env evt).core.pendingStateChange = true)
    (hcur : (w.afterRun env evt).core.currentState = w.core.currentState)
    (hnext : (w.afterRun env evt).core.newState ∈ nextStates w.core.currentState)
    (hnew : (w.afterRun env evt).core.newState ∈ [.hostReqUpdate, .hostUpdate])
    (hint : ((w.afterRun env evt).moved env).core.internal = false)
    (hnone : ((w.afterRun env evt).moved env).host.dataQueue = none) :
    ((w.afterRun env evt).moved env).streamMissing := by
  have hint' : (w.afterRun env evt).core.internal = false :=
    (moved_asks env _).internal.symm.trans hint
  simp only [List.mem_cons, List.not_mem_nil, or_false] at hnew
  rcases hnew with hnew | hnew
  · -- only a local request leads from Idle to the host role
    obtain ⟨buf, -, -, hbuf, hentry⟩ := afterRun_toHostReqUpdate h.settled hp hnext hnew
    rw [hentry] at hnone ⊢
    exact reqUpdateEntry_streamMissing env (w := (w.afterRun env evt).entering .hostReqUpdate)
      hbuf hint'
      hnone
  · rw [hnew] at hnext
    have hreq : w.core.currentState = .hostReqUpdate := by
      revert hnext
      cases w.core.currentState <;> simp [nextStates]
    have hkeep : KeepsStream (w.afterRun env evt) ((w.afterRun env evt).moved env) := by
      rw [moved_eq_entry env (hcur.trans hreq) (by decide) hnew]
      have henter : KeepsStream (w.afterRun env evt) ((w.afterRun env evt).entering .hostUpdate) :=
        ⟨.rfl, rfl⟩
      exact henter.trans (keepsStream_hostUpdateEntry env _)
    have hstay : (w.afterRun env evt).streamMissing :=
      h.source_stay (by rw [hreq]; decide) hint' (hkeep.dataQueue.mp hnone)
    unfold World.streamMissing at hstay ⊢
    rw [hkeep.streams]
    exact hstay

theorem FatalInv.consumed (h : FatalInv w) : FatalInv (consume env evt w) where
  settled := consume_settled env evt h.settled
  mild := consume_mild h.settled
  source := by
    obtain ⟨hcur, ⟨-, hu⟩ | ⟨hp, hnext, hu⟩⟩ := consume_cases env evt h.settled
    · rw [hu, hcur]
      exact h.source_stay
    · rw [hu, moved_currentState]
      exact h.source_move hp hcur hnext

/-- An action other than a turn leaves the core alone; a new update may have another source. -/
def SameCore (w u : World) : Prop :=
  u.core = w.core ∨ w.core.currentState = .idle ∧ ∃ b, u.core = { w.core with internal := b }

theorem initiateUpdate_sameCore (info : BmDfuImgInfo) (dest : UInt64) (fn : Option Nat)
    (timeoutMs : Nat) (internal : Bool) (w : World) :
    SameCore w (bmDfuInitiateUpdate env info dest fn timeoutMs internal w).2 := by
  unfold bmDfuInitiateUpdate bmFree bmQueueSend
  dsimp only
  cases fn with
  | none =>
    simp only [Option.map_none]
    split_ifs with _ hidle <;> first
      | exact .inl rfl
      | exact .inr ⟨not_not.mp hidle, internal, rfl⟩
  | some f =>
    simp only [Option.map_some]
    split_ifs with _ hidle <;> first
      | exact .inl rfl
      | exact .inr ⟨not_not.mp hidle, internal, rfl⟩

theorem act_sameCore (env : Env) (w : World) {a : Action} (ha : a ≠ .turn) :
    SameCore w (act env w a) := by
  have hsend : ∀ evt, (bmQueueSend evt w).2.core = w.core := by
    intro evt
    unfold bmQueueSend
    split <;> rfl
  cases a with
  | frame payload =>
    left
    unfold act dfuCopyAndProcessMessage bmDfuProcessMessage bmFree bmQueueSend
    dsimp only
    split
    · split
      · split
        · rfl
        · split
          · rfl
          · split
            · split_ifs <;> rfl
            · rfl
      · rfl
    · rfl
  | chunkTimer | ackTimer | updateTimer => exact .inl (hsend _)
  | heartbeatTimer => exact .inl rfl
  | initiateUpdate info dest fn timeoutMs internal =>
    exact initiateUpdate_sameCore info dest fn timeoutMs internal w
  | queueData data =>
    left
    unfold act bmDfuHostQueueData
    dsimp only
    split <;> rfl
  | turn => exact absurd rfl ha

/-- What is known does not depend on the queue. -/
theorem FatalInv.congr {u : World} (h : FatalInv w) (hcore : SameCore w u)
    (hqueue : u.host.dataQueue = none ↔ w.host.dataQueue = none)
    (hstreams : u.streams = w.streams) :
    FatalInv u := by
  rcases hcore with hcore | ⟨hidle, b, hcore⟩
  · refine ⟨?_, h.mild.of_eq hcore, ?_⟩
    · unfold Settled
      rw [hcore]
      exact h.settled
    · unfold World.streamMissing
      rw [hcore, hqueue, hstreams]
      exact h.source
  · refine ⟨?_, ?_, ?_⟩
    · unfold Settled
      rw [hcore]
      exact h.settled
    · rw [hcore]
      exact h.mild
    · intro hs
      rw [hcore] at hs
      simp [hidle] at hs

theorem FatalInv.step (h : FatalInv w) (a : Action) : FatalInv (act env w a) := by
  by_cases ha : a = .turn
  · subst ha
    cases hq : w.queue with
    | nil =>
      rw [act_turn_nil env hq]
      exact h
    | cons evt rest =>
      rw [act_turn_cons env hq]
      have hrest : FatalInv (w.withQueue rest) := ⟨h.settled, h.mild, h.source⟩
      refine hrest.consumed.congr (.inl (released_core evt _)) ?_ ?_
      · rw [released_host]
      · exact released_seen evt _ fun _ => rfl
  · refine h.congr (act_sameCore env w ha) (act_outside env w ha).dataQueue (act_seen ?_ env w ha)
    intro e he
    cases e <;> simp_all [Effect.ofIntake, Effect.isStreamCreate]

/-- The step into the fatal error state is a turn with a fault of this node. -/
theorem FatalInv.fault (h : FatalInv w) {a : Action} (hno : NoFatalVerdict env w a)
    (hwf : ¬ w.fatal)
    (hf : (act env w a).fatal) : w.faults < (act env w a).faults ∨ w.streamMissing := by
  by_cases ha : a = .turn
  · subst ha
    cases hq : w.queue with
    | nil =>
      rw [act_turn_nil env hq] at hf
      exact absurd hf hwf
    | cons evt rest =>
      rw [act_turn_cons env hq] at hf ⊢
      have hevt : fatalVerdict env (w.withQueue rest) evt = false := hno rfl evt (by simp [hq])
      have hcons : (consume env evt (w.withQueue rest)).fatal := by
        unfold World.fatal at hf
        rwa [released_core] at hf
      rcases consume_local (w := w.withQueue rest) h.settled h.mild hevt hwf
        hcons with hlt | ⟨hs, hint, hnone⟩
      · left
        refine lt_of_lt_of_le hlt (le_of_eq ?_)
        exact congrArg List.length (released_seen evt _ fun _ => rfl).symm
      · exact .inr (h.source (by rw [show w.core.currentState = .hostUpdate from hs]; decide)
          hint hnone)
  · have hout := act_outside env w ha
    exact absurd ⟨hout.currentState.symm.trans hf.1, hout.pendingStateChange.symm.trans hf.2⟩ hwf

/-- In every run in which no client reports a fatal error code to this node as its host, the fatal
error state is entered in a turn in which a call of this node has failed, or in a session whose
stream buffer could not be created. -/
theorem fatal_only_local (env : Env) (self : UInt64) (info : RebootClientUpdateInfo)
    (flash : Nat → UInt8) (as : List Action) (a : Action)
    (hno : Along (act env) (NoFatalVerdict env) (bmDfuInit self info flash) (as ++ [a])) :
    let w := as.foldl (act env) (bmDfuInit self info flash)
    ¬ w.fatal → (act env w a).fatal → w.faults < (act env w a).faults ∨ w.streamMissing := by
  intro w hwf hf
  rw [along_append] at hno
  have hinit : FatalInv (bmDfuInit self info flash) :=
    ⟨(fun h => by cases h), .of_not_pending rfl, (fun h => by simp [bmDfuInit] at h)⟩
  have hw : FatalInv w := foldl_invariant (fun w b h _ => h.step b) hinit hno.1
  exact hw.fault hno.2.1 hwf hf

/-- Node 7 offers an image to node 9, which sends the frame. -/
def offerAnswered (frame : List UInt8) : List Action :=
  [.turn, .turn, .initiateUpdate ⟨1, 1, 0, 0, 0, 0, 2⟩ 9 none 1000 true, .turn, .turn, .frame frame]

/-- Node 9 asks for the chunk of an accepted update, and node 7 cannot read its image. -/
theorem fatal_only_local_unreadable :
    let env := { Env.steady 1 4096 [] with hostGetChunk := fun _ _ _ => (.eio, []) }
    let as := offerAnswered (resultFrame bcmpDFUAckMessage 9 7 1 .none) ++
      [.turn, .turn, .frame (payloadReqFrame 9 7 0)]
    let w := as.foldl (act env) (bmDfuInit 7 .zero fun _ => 0)
    (act env w .turn).fatal ∧ (w.faults < (act env w .turn).faults ∨ w.streamMissing) :=
  ⟨by decide +kernel, fatal_only_local _ 7 .zero (fun _ => 0) _ .turn (by decide +kernel)
    (by decide +kernel) (by decide +kernel)⟩

/-- An Abort of the client with the error code 255 stops the DFU subsystem of the host for good,
though every call of the host succeeds. -/
theorem offerAnswered_fatal :
    let env := Env.steady 1 4096 []
    let w := (offerAnswered (resultFrame bcmpDFUAbortMessage 9 7 0 ⟨255⟩)).foldl (act env)
      (bmDfuInit 7 .zero fun _ => 0)
    ¬ w.fatal ∧ (act env w .turn).fatal ∧ (act env w .turn).faults = 0 ∧
      (act env w .turn).streams = [] := by
  decide +kernel

end Run

end BmCore.Dfu
