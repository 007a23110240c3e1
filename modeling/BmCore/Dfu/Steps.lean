import BmCore.Dfu.Core

/-!
# What the building blocks change

Projections of the services and hooks, so that the proofs about state functions never unfold
them, and the equation that splits one iteration of the machine into the run function of the
current state and the transition it asked for.
-/
namespace BmCore.Dfu
open Library

/-! ## Observing the log -/

/-- The effects of the log that `p` selects, latest first. -/
def World.seen (p : Effect → Bool) (w : World) : List Effect := w.log.filter p

section Updates
variable (w : World) (c : DfuCoreCtx) (cl : DfuClientCtx) (h : DfuHostCtx)
  (i : RebootClientUpdateInfo) (q : List BmDfuEvent) (f : Nat → UInt8) (e : Effect)

@[simp] theorem withCore_core : (w.withCore c).core = c := rfl
@[simp] theorem withCore_client : (w.withCore c).client = w.client := rfl
@[simp] theorem withCore_host : (w.withCore c).host = w.host := rfl
@[simp] theorem withCore_rebootInfo : (w.withCore c).rebootInfo = w.rebootInfo := rfl
@[simp] theorem withCore_queue : (w.withCore c).queue = w.queue := rfl
@[simp] theorem withCore_flash : (w.withCore c).flash = w.flash := rfl
@[simp] theorem withCore_log : (w.withCore c).log = w.log := rfl

@[simp] theorem withClient_core : (w.withClient cl).core = w.core := rfl
@[simp] theorem withClient_client : (w.withClient cl).client = cl := rfl
@[simp] theorem withClient_host : (w.withClient cl).host = w.host := rfl
@[simp] theorem withClient_rebootInfo : (w.withClient cl).rebootInfo = w.rebootInfo := rfl
@[simp] theorem withClient_queue : (w.withClient cl).queue = w.queue := rfl
@[simp] theorem withClient_flash : (w.withClient cl).flash = w.flash := rfl
@[simp] theorem withClient_log : (w.withClient cl).log = w.log := rfl

@[simp] theorem withHost_core : (w.withHost h).core = w.core := rfl
@[simp] theorem withHost_client : (w.withHost h).client = w.client := rfl
@[simp] theorem withHost_host : (w.withHost h).host = h := rfl
@[simp] theorem withHost_rebootInfo : (w.withHost h).rebootInfo = w.rebootInfo := rfl
@[simp] theorem withHost_queue : (w.withHost h).queue = w.queue := rfl
@[simp] theorem withHost_flash : (w.withHost h).flash = w.flash := rfl
@[simp] theorem withHost_log : (w.withHost h).log = w.log := rfl

@[simp] theorem withRebootInfo_core : (w.withRebootInfo i).core = w.core := rfl
@[simp] theorem withRebootInfo_client : (w.withRebootInfo i).client = w.client := rfl
@[simp] theorem withRebootInfo_host : (w.withRebootInfo i).host = w.host := rfl
@[simp] theorem withRebootInfo_rebootInfo : (w.withRebootInfo i).rebootInfo = i := rfl
@[simp] theorem withRebootInfo_queue : (w.withRebootInfo i).queue = w.queue := rfl
@[simp] theorem withRebootInfo_flash : (w.withRebootInfo i).flash = w.flash := rfl
@[simp] theorem withRebootInfo_log : (w.withRebootInfo i).log = w.log := rfl

@[simp] theorem withQueue_core : (w.withQueue q).core = w.core := rfl
@[simp] theorem withQueue_client : (w.withQueue q).client = w.client := rfl
@[simp] theorem withQueue_host : (w.withQueue q).host = w.host := rfl
@[simp] theorem withQueue_rebootInfo : (w.withQueue q).rebootInfo = w.rebootInfo := rfl
@[simp] theorem withQueue_queue : (w.withQueue q).queue = q := rfl
@[simp] theorem withQueue_flash : (w.withQueue q).flash = w.flash := rfl
@[simp] theorem withQueue_log : (w.withQueue q).log = w.log := rfl

@[simp] theorem withFlash_core : (w.withFlash f).core = w.core := rfl
@[simp] theorem withFlash_client : (w.withFlash f).client = w.client := rfl
@[simp] theorem withFlash_host : (w.withFlash f).host = w.host := rfl
@[simp] theorem withFlash_rebootInfo : (w.withFlash f).rebootInfo = w.rebootInfo := rfl
@[simp] theorem withFlash_queue : (w.withFlash f).queue = w.queue := rfl
@[simp] theorem withFlash_flash : (w.withFlash f).flash = f := rfl
@[simp] theorem withFlash_log : (w.withFlash f).log = w.log := rfl

@[simp] theorem emit_core : (w.emit e).core = w.core := rfl
@[simp] theorem emit_client : (w.emit e).client = w.client := rfl
@[simp] theorem emit_host : (w.emit e).host = w.host := rfl
@[simp] theorem emit_rebootInfo : (w.emit e).rebootInfo = w.rebootInfo := rfl
@[simp] theorem emit_queue : (w.emit e).queue = w.queue := rfl
@[simp] theorem emit_flash : (w.emit e).flash = w.flash := rfl
@[simp] theorem emit_log : (w.emit e).log = e :: w.log := rfl

end Updates

/-! ## Calls -/

section Calls
variable (env : Env) (t : Timer) (w : World)

@[simp] theorem bmTimerStart_fst : (bmTimerStart env t w).1 = env.timerStart w.log.length := rfl
@[simp] theorem bmTimerStart_snd : (bmTimerStart env t w).2 =
    w.emit (.timerStart t (env.timerStart w.log.length)) := rfl
@[simp] theorem bmTimerStop_fst : (bmTimerStop env t w).1 = env.timerStop w.log.length := rfl
@[simp] theorem bmTimerStop_snd : (bmTimerStop env t w).2 =
    w.emit (.timerStop t (env.timerStop w.log.length)) := rfl
@[simp] theorem bmTimerChangePeriod_snd : (bmTimerChangePeriod env t w).2 =
    w.emit (.timerChangePeriod t (env.timerChangePeriod w.log.length)) := rfl
@[simp] theorem bcmpTx_fst (f : List UInt8) : (bcmpTx env f w).1 = env.bcmpTx w.log.length := rfl
@[simp] theorem bcmpTx_snd (f : List UInt8) : (bcmpTx env f w).2 =
    w.emit (.tx f (env.bcmpTx w.log.length)) := rfl
@[simp] theorem bmMalloc_fst : (bmMalloc env w).1 = env.malloc w.log.length := rfl
@[simp] theorem bmMalloc_snd : (bmMalloc env w).2 =
    w.emit (.malloc (env.malloc w.log.length)) := rfl
@[simp] theorem flashAreaOpen_fst :
    (bmDfuClientFlashAreaOpen env w).1 = env.flashAreaOpen w.log.length := rfl
@[simp] theorem flashAreaOpen_snd : (bmDfuClientFlashAreaOpen env w).2 =
    w.emit (.flashAreaOpen (env.flashAreaOpen w.log.length)) := rfl
@[simp] theorem flashAreaErase_fst (off len : Nat) :
    (bmDfuClientFlashAreaErase env off len w).1 = env.flashAreaErase w.log.length := rfl
@[simp] theorem flashAreaErase_snd (off len : Nat) :
    (bmDfuClientFlashAreaErase env off len w).2 =
      (w.withFlash (flashAfterErase (env.flashAreaErase w.log.length) w.flash off len)).emit
        (.flashAreaErase off len (env.flashAreaErase w.log.length)) := rfl
@[simp] theorem flashAreaWrite_fst (off : Nat) (src : List UInt8) :
    (bmDfuClientFlashAreaWrite env off src w).1 = env.flashAreaWrite w.log.length := rfl
@[simp] theorem flashAreaWrite_snd (off : Nat) (src : List UInt8) :
    (bmDfuClientFlashAreaWrite env off src w).2 =
      (w.withFlash (flashAfterWrite (env.flashAreaWrite w.log.length) w.flash off src)).emit
        (.flashAreaWrite off src (env.flashAreaWrite w.log.length)) := rfl

end Calls

/-! ## Services -/

section Nop
variable (w : World)

@[simp] theorem nop_core : (bmDfuSendNopEvent w).core = w.core := by
  unfold bmDfuSendNopEvent bmQueueSend; split_ifs <;> rfl
@[simp] theorem nop_client : (bmDfuSendNopEvent w).client = w.client := by
  unfold bmDfuSendNopEvent bmQueueSend; split_ifs <;> rfl
@[simp] theorem nop_host : (bmDfuSendNopEvent w).host = w.host := by
  unfold bmDfuSendNopEvent bmQueueSend; split_ifs <;> rfl
@[simp] theorem nop_rebootInfo : (bmDfuSendNopEvent w).rebootInfo = w.rebootInfo := by
  unfold bmDfuSendNopEvent bmQueueSend; split_ifs <;> rfl
@[simp] theorem nop_flash : (bmDfuSendNopEvent w).flash = w.flash := by
  unfold bmDfuSendNopEvent bmQueueSend; split_ifs <;> rfl
@[simp] theorem nop_log : (bmDfuSendNopEvent w).log = w.log := by
  unfold bmDfuSendNopEvent bmQueueSend; split_ifs <;> rfl

end Nop

section Pending
variable (s : BmDfuState) (w : World)

@[simp] theorem setPending_core : (bmDfuSetPendingStateChange s w).core =
    { w.core with pendingStateChange := true, newState := s } := by
  simp [bmDfuSetPendingStateChange]
@[simp] theorem setPending_client : (bmDfuSetPendingStateChange s w).client = w.client := by
  simp [bmDfuSetPendingStateChange]
@[simp] theorem setPending_host : (bmDfuSetPendingStateChange s w).host = w.host := by
  simp [bmDfuSetPendingStateChange]
@[simp] theorem setPending_rebootInfo :
    (bmDfuSetPendingStateChange s w).rebootInfo = w.rebootInfo := by
  simp [bmDfuSetPendingStateChange]
@[simp] theorem setPending_flash : (bmDfuSetPendingStateChange s w).flash = w.flash := by
  simp [bmDfuSetPendingStateChange]
@[simp] theorem setPending_log : (bmDfuSetPendingStateChange s w).log = w.log := by
  simp [bmDfuSetPendingStateChange]

end Pending

/-- The frame services and timer calls only add to the log. -/
@[simp] theorem bmDfuSendAck_eq (env : Env) (dst : UInt64) (ok : UInt8) (err : BmDfuErr)
    (w : World) : bmDfuSendAck env dst ok err w =
      w.emit (.tx (resultFrame bcmpDFUAckMessage w.core.selfNodeId dst ok err)
        (env.bcmpTx w.log.length)) := rfl
@[simp] theorem bmDfuReqNextChunk_eq (env : Env) (dst : UInt64) (n : Nat) (w : World) :
    bmDfuReqNextChunk env dst n w =
      w.emit (.tx (payloadReqFrame w.core.selfNodeId dst n) (env.bcmpTx w.log.length)) := rfl
@[simp] theorem bmDfuUpdateEnd_eq (env : Env) (dst : UInt64) (ok : UInt8) (err : BmDfuErr)
    (w : World) : bmDfuUpdateEnd env dst ok err w =
      w.emit (.tx (resultFrame bcmpDFUEndMessage w.core.selfNodeId dst ok err)
        (env.bcmpTx w.log.length)) := rfl
@[simp] theorem bmDfuClientAbort_eq (env : Env) (err : BmDfuErr) (w : World) :
    bmDfuClientAbort env err w =
      w.emit (.tx (resultFrame bcmpDFUAbortMessage w.client.selfNodeId w.client.hostNodeId 0 err)
        (env.bcmpTx w.log.length)) := rfl
@[simp] theorem bmDfuClientSendRebootRequest_eq (env : Env) (w : World) :
    bmDfuClientSendRebootRequest env w =
      w.emit (.tx (frameHeader bcmpDFURebootReqMessage w.client.selfNodeId w.client.hostNodeId)
        (env.bcmpTx w.log.length)) := rfl
@[simp] theorem bmDfuClientSendBootComplete_eq (env : Env) (dst : UInt64) (w : World) :
    bmDfuClientSendBootComplete env dst w =
      w.emit (.tx (frameHeader bcmpDFUBootCompleteMessage w.client.selfNodeId dst)
        (env.bcmpTx w.log.length)) := rfl
@[simp] theorem bmDfuHostReqUpdate_eq (env : Env) (w : World) :
    bmDfuHostReqUpdate env w =
      w.emit (.tx (startFrame w.host.selfNodeId w.host.clientNodeId w.host.imgInfo)
        (env.bcmpTx w.log.length)) := rfl
@[simp] theorem bmDfuHostSendReboot_eq (env : Env) (w : World) :
    bmDfuHostSendReboot env w =
      w.emit (.tx (frameHeader bcmpDFURebootMessage w.host.selfNodeId w.host.clientNodeId)
        (env.bcmpTx w.log.length)) := rfl

/-! ## Error transitions -/

section ClientError
variable (env : Env) (err : BmDfuErr) (w : World)

@[simp] theorem clientError_core : (bmDfuClientTransitionToError env err w).core =
    { w.core with error := err, pendingStateChange := true, newState := .error } := by
  simp [bmDfuClientTransitionToError, bmTimerStop, bmDfuSetError]
@[simp] theorem clientError_client :
    (bmDfuClientTransitionToError env err w).client = w.client := by
  simp [bmDfuClientTransitionToError, bmTimerStop, bmDfuSetError]
@[simp] theorem clientError_host : (bmDfuClientTransitionToError env err w).host = w.host := by
  simp [bmDfuClientTransitionToError, bmTimerStop, bmDfuSetError]
@[simp] theorem clientError_rebootInfo :
    (bmDfuClientTransitionToError env err w).rebootInfo = w.rebootInfo := by
  simp [bmDfuClientTransitionToError, bmTimerStop, bmDfuSetError]
@[simp] theorem clientError_flash : (bmDfuClientTransitionToError env err w).flash = w.flash := by
  simp [bmDfuClientTransitionToError, bmTimerStop, bmDfuSetError]
@[simp] theorem clientError_log : (bmDfuClientTransitionToError env err w).log =
    .timerStop .chunk (env.timerStop w.log.length) :: w.log := by
  simp [bmDfuClientTransitionToError, bmTimerStop, bmDfuSetError]

theorem clientTimerErrCheck_client (call : BmErr × World) :
    (clientTimerErrCheck env call).2.client = call.2.client := by
  unfold clientTimerErrCheck
  split <;> simp

end ClientError

/-- A block of timer calls that found its end at some point. -/
def TimerStops (es : List Effect) : Prop := ∀ e ∈ es, ∃ t r, e = .timerStop t r

theorem stopHostTimers_shape (env : Env) (w : World) :
    ∃ es, TimerStops es ∧ (stopHostTimers env w).2 = { w with log := es ++ w.log } := by
  by_cases h₁ : env.timerStop w.log.length = .ok
  · by_cases h₂ : env.timerStop (w.log.length + 1) = .ok
    · refine ⟨[.timerStop .ack (env.timerStop (w.log.length + 2)),
        .timerStop .heartbeat .ok, .timerStop .update .ok], ?_, ?_⟩
      · simp [TimerStops]
      · simp only [stopHostTimers, bmTimerStop, emit_log, List.length_cons, h₁, h₂]
        rfl
    · refine ⟨[.timerStop .heartbeat (env.timerStop (w.log.length + 1)), .timerStop .update .ok],
        ?_, ?_⟩
      · simp [TimerStops]
      · simp [stopHostTimers, bmTimerStop, h₁, h₂]
        rfl
  · refine ⟨[.timerStop .update (env.timerStop w.log.length)], ?_, ?_⟩
    · simp [TimerStops]
    · simp [stopHostTimers, bmTimerStop, h₁]
      rfl

section HostError
variable (env : Env) (err : BmDfuErr) (w : World)

@[simp] theorem hostError_core : (bmDfuHostTransitionToError env err w).core =
    { w.core with error := err, pendingStateChange := true, newState := .error } := by
  obtain ⟨es, -, h⟩ := stopHostTimers_shape env w
  simp [bmDfuHostTransitionToError, h, bmDfuSetError]
@[simp] theorem hostError_client : (bmDfuHostTransitionToError env err w).client = w.client := by
  obtain ⟨es, -, h⟩ := stopHostTimers_shape env w
  simp [bmDfuHostTransitionToError, h, bmDfuSetError]
@[simp] theorem hostError_host : (bmDfuHostTransitionToError env err w).host = w.host := by
  obtain ⟨es, -, h⟩ := stopHostTimers_shape env w
  simp [bmDfuHostTransitionToError, h, bmDfuSetError]
@[simp] theorem hostError_rebootInfo :
    (bmDfuHostTransitionToError env err w).rebootInfo = w.rebootInfo := by
  obtain ⟨es, -, h⟩ := stopHostTimers_shape env w
  simp [bmDfuHostTransitionToError, h, bmDfuSetError]
@[simp] theorem hostError_flash : (bmDfuHostTransitionToError env err w).flash = w.flash := by
  obtain ⟨es, -, h⟩ := stopHostTimers_shape env w
  simp [bmDfuHostTransitionToError, h, bmDfuSetError]

theorem hostError_log :
    ∃ es, TimerStops es ∧ (bmDfuHostTransitionToError env err w).log = es ++ w.log := by
  obtain ⟨es, hes, h⟩ := stopHostTimers_shape env w
  exact ⟨es, hes, by simp [bmDfuHostTransitionToError, h, bmDfuSetError]⟩

theorem hostError_suffix : w.log <:+ (bmDfuHostTransitionToError env err w).log := by
  obtain ⟨es, -, h⟩ := hostError_log env err w
  exact ⟨es, h.symm⟩

theorem hostError_seen {p : Effect → Bool} (hp : ∀ t r, p (.timerStop t r) = false) :
    (bmDfuHostTransitionToError env err w).seen p = w.seen p := by
  obtain ⟨es, hes, h⟩ := hostError_log env err w
  have hnone : es.filter p = [] := by
    rw [List.filter_eq_nil_iff]
    intro e he
    obtain ⟨t, r, rfl⟩ := hes e he
    simp [hp]
  simp [World.seen, h, hnone]

end HostError

section Division
variable (info : BmDfuImgInfo) (w : World)

@[simp] theorem recordDivision_core : (recordDivision info w).core = w.core := by
  unfold recordDivision; split <;> rfl
@[simp] theorem recordDivision_client : (recordDivision info w).client = w.client := by
  unfold recordDivision; split <;> rfl
@[simp] theorem recordDivision_host : (recordDivision info w).host = w.host := by
  unfold recordDivision; split <;> rfl
@[simp] theorem recordDivision_rebootInfo :
    (recordDivision info w).rebootInfo = w.rebootInfo := by
  unfold recordDivision; split <;> rfl
@[simp] theorem recordDivision_queue : (recordDivision info w).queue = w.queue := by
  unfold recordDivision; split <;> rfl
@[simp] theorem recordDivision_flash : (recordDivision info w).flash = w.flash := by
  unfold recordDivision; split <;> rfl

end Division

/-! ## The queue -/

/-- `q'` is `q` with NOP events appended: all the machine itself ever queues. -/
def NopsAdded (q q' : List BmDfuEvent) : Prop := ∃ n, q' = q ++ List.replicate n { type := .none }

namespace NopsAdded
variable {q q' q'' : List BmDfuEvent}

theorem refl (q : List BmDfuEvent) : NopsAdded q q := ⟨0, by simp⟩

theorem of_eq (h : q' = q) : NopsAdded q q' := by
  subst h
  exact .refl _

theorem trans (h : NopsAdded q q') (g : NopsAdded q' q'') : NopsAdded q q'' := by
  obtain ⟨n, rfl⟩ := h
  obtain ⟨m, rfl⟩ := g
  exact ⟨n + m, by rw [List.append_assoc, List.replicate_add]⟩

theorem mem (h : NopsAdded q q') {evt : BmDfuEvent} (he : evt ∈ q') :
    evt ∈ q ∨ evt = { type := .none } := by
  obtain ⟨n, rfl⟩ := h
  rcases List.mem_append.mp he with he | he
  · exact .inl he
  · exact .inr (List.eq_of_mem_replicate he)

end NopsAdded

theorem nopsAdded_setPending (s : BmDfuState) (w : World) :
    NopsAdded w.queue (bmDfuSetPendingStateChange s w).queue := by
  unfold bmDfuSetPendingStateChange bmDfuSendNopEvent bmQueueSend
  split
  · exact ⟨1, rfl⟩
  · exact .refl _

theorem nopsAdded_clientError (env : Env) (err : BmDfuErr) (w : World) :
    NopsAdded w.queue (bmDfuClientTransitionToError env err w).queue :=
  nopsAdded_setPending .error _

theorem nopsAdded_hostError (env : Env) (err : BmDfuErr) (w : World) :
    NopsAdded w.queue (bmDfuHostTransitionToError env err w).queue := by
  obtain ⟨es, -, h⟩ := stopHostTimers_shape env w
  have hq : (bmDfuSetError err (stopHostTimers env w).2).queue = w.queue := by
    rw [h]
    rfl
  rw [← hq]
  exact nopsAdded_setPending .error _

/-! ## The Receiving state, by event -/

section Receiving
variable {env : Env} {w : World}

theorem receivingRun_imageChunk {buf : BmDfuBuf}
    (he : w.core.currentEvent = { type := .imageChunk, buf := some buf }) :
    sClientReceivingRun env w =
      if payloadLength env.beyond buf.bytes > bmDfuMaxChunkSize then (.einval, w)
      else if env.timerStop w.log.length ≠ .ok then
        (env.timerStop w.log.length,
          bmDfuClientTransitionToError env .aborted (bmTimerStop env .chunk w).2)
      else clientAcceptChunk env (payloadBuf env.beyond buf.bytes
        (payloadLength env.beyond buf.bytes)) (bmTimerStop env .chunk w).2 := by
  unfold sClientReceivingRun
  simp only [bmDfuGetCurrentEvent, he]
  rfl

theorem receivingRun_updateRequest {buf : Option BmDfuBuf}
    (he : w.core.currentEvent = { type := .receivedUpdateRequest, buf := buf }) :
    sClientReceivingRun env w =
      if env.timerStop w.log.length ≠ .ok then
        (env.timerStop w.log.length,
          bmDfuClientTransitionToError env .aborted (bmTimerStop env .chunk w).2)
      else clientResync env (bmTimerStop env .chunk w).2 := by
  unfold sClientReceivingRun
  simp only [bmDfuGetCurrentEvent, he]
  rfl

theorem receivingRun_chunkTimeout {buf : Option BmDfuBuf}
    (he : w.core.currentEvent = { type := .chunkTimeout, buf := buf }) :
    sClientReceivingRun env w = clientChunkTimeout env w := by
  unfold sClientReceivingRun
  simp only [bmDfuGetCurrentEvent, he]

theorem receivingRun_heartbeat {buf : Option BmDfuBuf}
    (he : w.core.currentEvent = { type := .heartbeat, buf := buf }) :
    sClientReceivingRun env w = clientTimerErrCheck env (bmTimerStart env .chunk w) := by
  unfold sClientReceivingRun
  simp only [bmDfuGetCurrentEvent, he]

/-- The events the Receiving state acts on. -/
def actsInReceiving (evt : BmDfuEvent) : Bool :=
  match evt.type with
  | .imageChunk => evt.buf.isSome
  | .chunkTimeout | .receivedUpdateRequest | .heartbeat => true
  | _ => false

/-- Every other event is ignored. -/
theorem receivingRun_ignored (h : actsInReceiving w.core.currentEvent = false) :
    sClientReceivingRun env w = (.einval, w) := by
  unfold sClientReceivingRun
  dsimp only [bmDfuGetCurrentEvent]
  revert h
  rcases w.core.currentEvent with ⟨type, buf⟩
  cases type <;> cases buf <;> simp [actsInReceiving]

end Receiving

/-! ## One iteration -/

/-- The world in which the run function sees `evt`. -/
def World.withEvent (evt : BmDfuEvent) (w : World) : World :=
  w.withCore { w.core with currentEvent := evt }

/-- Take the transition that the run function left pending. -/
def settle (env : Env) (u : World) : World :=
  if u.core.pendingStateChange then
    let v := u.withCore { u.core with pendingStateChange := false }
    if u.core.currentState ≠ u.core.newState then libSmEnter (dfuSm env) u.core.newState v else v
  else u

theorem consume_eq (env : Env) (evt : BmDfuEvent) (w : World) :
    consume env evt w =
      settle env ((dfuStates env w.core.currentState).run (w.withEvent evt)).2 := by
  unfold consume libSmRun settle
  simp only [dfuSm, bmDfuCheckTransitions, World.withEvent]
  split_ifs <;> simp_all

end BmCore.Dfu
