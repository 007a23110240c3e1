import BmCore.Dfu.Peers

/-!
# Confirmation after the reboot

A client that comes up with an update to confirm waits in ClientRebootDone for the End frame of its
host. It confirms the image on any End frame, whether it reports success or not, and the frames that
arrived before the machine left Init were queued without a look at their source.
-/
namespace BmCore.Dfu
open Library

def Effect.isConfirmed : Effect → Bool
  | .setConfirmed => true
  | _ => false

/-- The calls of `bm_dfu_client_set_confirmed` so far. -/
def World.confirmations (w : World) : List Effect := w.seen Effect.isConfirmed

/-- The End frames that wait in the queue come from the node `host`. -/
def EndsFrom (env : Env) (host : UInt64) (q : List BmDfuEvent) : Prop :=
  ∀ evt ∈ q, evt.type = .updateEnd → ∀ buf ∈ evt.buf, srcNodeId env.beyond buf.bytes = host

/-- The condition on an action: an End frame that arrives in Init comes from the recorded host, and
an End frame that ends the wait reports success. -/
def HostConfirms (env : Env) (host : UInt64) (w : World) : Action → Prop
  | .frame payload => w.core.currentState = .init →
    dstNodeId env.beyond payload = w.core.selfNodeId →
    frameEvent (frameType env.beyond payload) = some .updateEnd →
    srcNodeId env.beyond payload = host
  | .turn => w.core.currentState = .clientRebootDone → ∀ evt ∈ w.queue.head?,
    evt.type = .updateEnd → ∀ buf ∈ evt.buf, resultSuccess env.beyond buf.bytes ≠ 0
  | _ => True

instance (env : Env) (host : UInt64) (w : World) (a : Action) :
    Decidable (HostConfirms env host w a) := by
  cases a <;> unfold HostConfirms <;> infer_instance

/-! ## Where the image is confirmed -/

/-- Between the worlds nothing is confirmed. -/
def Unconfirmed (w u : World) : Prop := u.confirmations = w.confirmations

namespace Unconfirmed
variable {w u v : World}

theorem refl (w : World) : Unconfirmed w w := rfl

theorem trans (h : Unconfirmed w u) (g : Unconfirmed u v) : Unconfirmed w v := Eq.trans g h

theorem of_log (h : u.log = w.log) : Unconfirmed w u := congrArg (List.filter Effect.isConfirmed) h

end Unconfirmed

section Client
variable (env : Env) (w : World)

theorem unconfirmed_emit {e : Effect} (he : e.isConfirmed = false) : Unconfirmed w (w.emit e) := by
  simp [Unconfirmed, World.confirmations, World.seen, he]

theorem unconfirmed_setPending (s : BmDfuState) : Unconfirmed w (bmDfuSetPendingStateChange s w) :=
  .of_log (by simp)

theorem unconfirmed_error (err : BmDfuErr) :
    Unconfirmed w (bmDfuClientTransitionToError env err w) := by
  simp [Unconfirmed, World.confirmations, World.seen, Effect.isConfirmed]

theorem unconfirmed_timerErrCheck (call : BmErr × World) :
    Unconfirmed call.2 (clientTimerErrCheck env call).2 := by
  unfold clientTimerErrCheck
  split
  · exact unconfirmed_error env _ _
  · exact .refl _

theorem unconfirmed_nextChunk : Unconfirmed w (clientNextChunk env w).2 := by
  unfold clientNextChunk
  dsimp only
  split
  · refine Unconfirmed.trans ?_ (unconfirmed_timerErrCheck env _)
    rfl
  · have hend : Unconfirmed w (bmDfuProcessEnd env (w.withClient { w.client with
        currentChunk := (w.client.currentChunk + 1) % 2 ^ 16, chunkRetryNum := 0 })).2 :=
      bmDfuProcessEnd_seen (fun _ _ _ => rfl) env _ rfl
    split
    · exact hend.trans (unconfirmed_error env _ _)
    · exact hend.trans (unconfirmed_setPending _ _)

theorem unconfirmed_acceptChunk (payload : List UInt8) :
    Unconfirmed w (clientAcceptChunk env payload w).2 := by
  have hpay : Unconfirmed w (bmDfuProcessPayload env payload (w.withClient { w.client with
      chunkLength := payload.length
      runningCrc16 := crc16Ccitt w.client.runningCrc16 payload })).2 :=
    bmDfuProcessPayload_seen (fun _ _ _ => rfl) env _ payload
  unfold clientAcceptChunk
  dsimp only
  refine Unconfirmed.trans ?_ (unconfirmed_nextChunk env _)
  split
  · exact hpay.trans (unconfirmed_error env _ _)
  · exact hpay

theorem unconfirmed_receivingRun : Unconfirmed w (sClientReceivingRun env w).2 := by
  have hstop : Unconfirmed w (bmTimerStop env .chunk w).2 := unconfirmed_emit w rfl
  unfold sClientReceivingRun clientChunkTimeout clientResync
  dsimp only
  split
  · split
    · exact .refl w
    · split
      · exact hstop.trans (unconfirmed_error env _ _)
      · exact hstop.trans (unconfirmed_acceptChunk env _ _)
  · split
    · refine Unconfirmed.trans ?_ (unconfirmed_error env _ _)
      rfl
    · refine Unconfirmed.trans ?_ (unconfirmed_timerErrCheck env _)
      rfl
  · split
    · exact hstop.trans (unconfirmed_error env _ _)
    · refine Unconfirmed.trans ?_ (unconfirmed_timerErrCheck env _)
      rfl
  · refine Unconfirmed.trans ?_ (unconfirmed_timerErrCheck env _)
    exact unconfirmed_emit w rfl
  · exact .refl w

theorem unconfirmed_rebootReqRun : Unconfirmed w (sClientRebootReqRun env w).2 := by
  unfold sClientRebootReqRun
  dsimp only
  split
  · exact Unconfirmed.trans (unconfirmed_emit w rfl) (unconfirmed_setPending _ _)
  · exact .refl w
  · split
    · refine Unconfirmed.trans ?_ (unconfirmed_error env _ _)
      rfl
    · rfl
  · exact .refl w

theorem unconfirmed_validatingEntry : Unconfirmed w (sClientValidatingEntry env w).2 := by
  unfold sClientValidatingEntry
  dsimp only
  split
  · exact Unconfirmed.trans (unconfirmed_emit w rfl) (unconfirmed_error env _ _)
  · split
    · exact unconfirmed_setPending w _
    · exact Unconfirmed.trans (unconfirmed_emit w rfl) (unconfirmed_error env _ _)

theorem unconfirmed_prepareSlot (info : BmDfuImgInfo) :
    Unconfirmed w (clientPrepareSlot env info w) := by
  unfold clientPrepareSlot
  dsimp only
  split
  · split
    · refine Unconfirmed.trans ?_ (unconfirmed_error env _ _)
      rfl
    · refine Unconfirmed.trans ?_ (unconfirmed_setPending _ _)
      rfl
  · exact unconfirmed_emit w rfl

theorem unconfirmed_takeStart (info : BmDfuImgInfo) :
    Unconfirmed w (clientTakeStart env info w) := by
  have hdiv : Unconfirmed w (recordDivision info w) := by
    unfold recordDivision
    split
    · exact unconfirmed_emit w rfl
    · exact .refl w
  unfold clientTakeStart
  dsimp only
  split
  · refine hdiv.trans (Unconfirmed.trans ?_ (unconfirmed_error env _ _))
    rfl
  · refine hdiv.trans (Unconfirmed.trans ?_ (unconfirmed_prepareSlot env _ info))
    rfl

theorem unconfirmed_processUpdateRequest :
    Unconfirmed w (bmDfuClientProcessUpdateRequest env w) := by
  cases hbuf : w.core.currentEvent.buf with
  | none =>
    simp only [bmDfuClientProcessUpdateRequest, bmDfuGetCurrentEvent, hbuf]
    exact .refl w
  | some buf =>
    simp only [bmDfuClientProcessUpdateRequest, bmDfuGetCurrentEvent, hbuf]
    generalize hu : w.withClient _ = u
    have hwu : Unconfirmed w u := .of_log (by rw [← hu, withClient_log])
    refine hwu.trans ?_
    split
    · split
      · exact Unconfirmed.trans (unconfirmed_emit u rfl) (unconfirmed_error env _ _)
      · exact unconfirmed_takeStart env u _
    · exact unconfirmed_emit u rfl

end Client

theorem Effect.ofHost_of_isConfirmed (e : Effect) (h : e.isConfirmed = true) :
    e.ofHost = false := by
  cases e <;> simp_all [Effect.isConfirmed, Effect.ofHost]

theorem HostOnly.unconfirmed {w u : World} (h : HostOnly w u) : Unconfirmed w u :=
  h.seen_of Effect.ofHost_of_isConfirmed

/-- No run function but the one of ClientRebootDone confirms an image. -/
theorem run_unconfirmed (env : Env) (w : World) (hne : w.core.currentState ≠ .clientRebootDone) :
    Unconfirmed w ((dfuStates env w.core.currentState).run w).2 := by
  cases hs : w.core.currentState with
  | init =>
    simp only [dfuStates, sInitRun]
    split
    · split <;> exact unconfirmed_setPending w _
    · exact .refl w
  | idle =>
    simp only [dfuStates, sIdleRun]
    split
    · exact unconfirmed_processUpdateRequest env w
    · refine Unconfirmed.trans ?_ (unconfirmed_setPending _ _)
      exact .of_log (by simp [bmDfuHostSetParams])
    · exact .refl w
  | error | clientValidating | clientActivating => exact .refl w
  | clientReceiving => exact unconfirmed_receivingRun env w
  | clientRebootReq => exact unconfirmed_rebootReqRun env w
  | clientRebootDone => exact absurd hs hne
  | hostReqUpdate => exact (hostOnly_reqUpdateRun env w).unconfirmed
  | hostUpdate =>
    by_cases ht : w.core.currentEvent.type = .updateEnd
    · exact hostUpdateRun_updateEnd_seen Effect.ofHost_of_isConfirmed (fun _ _ _ _ => rfl) env w ht
    · exact (hostOnly_hostUpdateRun env w ht).unconfirmed

theorem entry_unconfirmed (env : Env) (w : World) (hne : w.core.currentState ≠ .clientRebootDone) :
    Unconfirmed w (w.onEntry env) := by
  unfold World.onEntry
  cases hs : w.core.currentState with
  | init | idle | clientActivating => rfl
  | error => exact errorEntry_seen (fun _ _ _ _ => rfl) w
  | clientReceiving => rfl
  | clientValidating => exact unconfirmed_validatingEntry env w
  | clientRebootReq => rfl
  | clientRebootDone => exact absurd hs hne
  | hostReqUpdate => exact (hostOnly_reqUpdateEntry env w).unconfirmed
  | hostUpdate => exact (hostOnly_hostUpdateEntry env w).unconfirmed

theorem moved_unconfirmed (env : Env) {u : World} (hne : u.core.newState ≠ .clientRebootDone) :
    Unconfirmed u (u.moved env) := by
  by_cases h : u.core.currentState = .hostUpdate
  · rw [moved_eq_of_hostUpdate env h]
    have hexit := (hostOnly_hostUpdateExit u).unconfirmed
    exact hexit.trans (entry_unconfirmed env ((sHostUpdateExit u).2.entering u.core.newState) hne)
  · rw [moved_eq env h]
    exact entry_unconfirmed env (u.entering u.core.newState) hne

/-- An image is confirmed on the way from Init to ClientRebootDone, or in ClientRebootDone. -/
theorem consume_unconfirmed (env : Env) (evt : BmDfuEvent) {w : World} (hw : Settled w)
    (h : (consume env evt w).confirmations ≠ w.confirmations) :
    w.core.currentState = .clientRebootDone ∨
      w.core.currentState = .init ∧ (w.afterRun env evt).core.pendingStateChange = true ∧
        (w.afterRun env evt).core.newState = .clientRebootDone := by
  by_cases hdone : w.core.currentState = .clientRebootDone
  · exact .inl hdone
  · have hrun : Unconfirmed w (w.afterRun env evt) := run_unconfirmed env (w.withEvent evt) hdone
    obtain ⟨-, ⟨-, hu⟩ | ⟨hp, hnext, hu⟩⟩ := consume_cases env evt hw
    · rw [hu] at h
      exact absurd hrun h
    · by_cases hnew : (w.afterRun env evt).core.newState = .clientRebootDone
      · right
        rw [hnew] at hnext
        refine ⟨?_, hp, hnew⟩
        revert hnext
        cases w.core.currentState <;> simp [nextStates]
      · rw [hu] at h
        exact absurd (hrun.trans (moved_unconfirmed env hnew)) h

/-! ## The wait for the host -/

/-- What is known between actions about the update that `info` records. -/
structure ConfirmInv (env : Env) (info : RebootClientUpdateInfo) (w : World) : Prop where
  settled : Settled w
  recorded : w.core.currentState = .init → w.rebootInfo = info
  ends : w.core.currentState ∈ [.init, .clientRebootDone] → EndsFrom env info.hostNodeId w.queue
  host : w.core.currentState = .clientRebootDone → w.client.hostNodeId = info.hostNodeId
  version : w.core.currentState = .clientRebootDone → .failUpdateAndReset ∉ w.log →
    env.gitSha = info.gitSHA

section Step
variable {env : Env} {info : RebootClientUpdateInfo} {w : World} {evt : BmDfuEvent}

theorem EndsFrom.nops {host : UInt64} {q q' : List BmDfuEvent} (h : EndsFrom env host q)
    (hq : NopsAdded q q') : EndsFrom env host q' := by
  intro evt hevt htype
  rcases hq.mem hevt with hmem | rfl
  · exact h evt hmem htype
  · cases htype

theorem EndsFrom.tail {host : UInt64} {q : List BmDfuEvent} (h : EndsFrom env host (evt :: q)) :
    EndsFrom env host q := fun e he => h e (List.mem_cons_of_mem _ he)

/-- The entry of ClientRebootDone. -/
theorem updateDoneEntry_version (env : Env) (w : World)
    (hno : .failUpdateAndReset ∉ (sClientUpdateDoneEntry env w).2.log) :
    env.gitSha = w.rebootInfo.gitSHA := by
  by_contra hne
  refine hno ?_
  unfold sClientUpdateDoneEntry
  dsimp only
  rw [withClient_rebootInfo, if_neg hne]
  simp [bmDfuClientFailUpdateAndReboot]

theorem updateDoneEntry_confirms (env : Env) (w : World)
    (h : ¬ Unconfirmed w (sClientUpdateDoneEntry env w).2) :
    env.gitSha = w.rebootInfo.gitSHA ∧ bmDfuClientConfirmIsEnabled env w = false := by
  unfold sClientUpdateDoneEntry bmDfuClientFailUpdateAndReboot at h
  dsimp only at h
  rw [withClient_rebootInfo] at h
  split at h
  next hsha =>
    refine ⟨hsha, ?_⟩
    split at h
    next henabled => simpa [bmDfuClientConfirmIsEnabled] using henabled
    · exact absurd rfl h
  · exact absurd rfl h

theorem updateDoneRun_confirms (env : Env) (w : World)
    (h : ¬ Unconfirmed w (sClientUpdateDoneRun env w).2) :
    ∃ buf, w.core.currentEvent = { type := .updateEnd, buf := some buf } := by
  unfold sClientUpdateDoneRun bmDfuClientFailUpdateAndReboot at h
  dsimp only [bmDfuGetCurrentEvent] at h
  rcases hevt : w.core.currentEvent with ⟨type, buf⟩
  simp only [hevt] at h
  split at h
  next buf => exact ⟨buf, rfl⟩
  · exact absurd rfl h
  · split at h <;> exact absurd rfl h
  · exact absurd rfl h

/-- The run function of Init only asks for the next state. -/
theorem initRun_frame (w : World) : (sInitRun w).2.rebootInfo = w.rebootInfo ∧
    (sInitRun w).2.log = w.log := by
  unfold sInitRun
  split
  · split <;> simp
  · exact ⟨rfl, rfl⟩

theorem ConfirmInv.afterInit (h : ConfirmInv env info w) (hs : w.core.currentState = .init) :
    (w.afterRun env evt).rebootInfo = info ∧ (w.afterRun env evt).log = w.log := by
  have hafter : w.afterRun env evt = (sInitRun (w.withEvent evt)).2 := by
    simp [World.afterRun, hs, dfuStates]
  rw [hafter, (initRun_frame _).1, (initRun_frame _).2]
  exact ⟨h.recorded hs, rfl⟩

theorem ConfirmInv.consumed (h : ConfirmInv env info w) :
    ConfirmInv env info (consume env evt w) := by
  have hgrows := consume_grows env evt h.settled
  obtain ⟨hcur, ⟨-, hu⟩ | ⟨-, hnext, hu⟩⟩ := consume_cases env evt h.settled
  · rw [hu] at hgrows ⊢
    refine ⟨hu ▸ consume_settled env evt h.settled, ?_, ?_, ?_, ?_⟩
    · intro hs
      exact (h.afterInit (hcur.symm.trans hs)).1
    · intro hs
      rw [hcur] at hs
      exact (h.ends hs).nops hgrows.queue
    · intro hs
      rw [hcur] at hs
      have hafter : w.afterRun env evt = (sClientUpdateDoneRun env (w.withEvent evt)).2 := by
        simp [World.afterRun, hs, dfuStates]
      rw [hafter, updateDoneRun_hostNodeId]
      exact h.host hs
    · intro hs hno
      rw [hcur] at hs
      exact h.version hs fun hmem => hno (hgrows.log.subset hmem)
  · rw [hu] at hgrows ⊢
    -- Init has no predecessor and ClientRebootDone only Init
    have hninit : (w.afterRun env evt).core.newState ≠ .init := by
      intro hn
      rw [hn] at hnext
      revert hnext
      cases w.core.currentState <;> simp [nextStates]
    have hinit : (w.afterRun env evt).core.newState = .clientRebootDone →
        w.core.currentState = .init := by
      intro hn
      rw [hn] at hnext
      revert hnext
      cases w.core.currentState <;> simp [nextStates]
    have hentry : (w.afterRun env evt).core.newState = .clientRebootDone →
        (w.afterRun env evt).moved env =
          (sClientUpdateDoneEntry env ((w.afterRun env evt).entering .clientRebootDone)).2 :=
          fun hn =>
      moved_eq_entry env (hcur.trans (hinit hn)) (by decide) hn
    refine ⟨hu ▸ consume_settled env evt h.settled, ?_, ?_, ?_, ?_⟩
    · intro hs
      rw [moved_currentState] at hs
      exact absurd hs hninit
    · intro hs
      rw [moved_currentState] at hs
      simp only [List.mem_cons, List.not_mem_nil, or_false] at hs
      rcases hs with hs | hs
      · exact absurd hs hninit
      · exact (h.ends (by rw [hinit hs]; decide)).nops hgrows.queue
    · intro hs
      rw [moved_currentState] at hs
      rw [hentry hs, updateDoneEntry_hostNodeId]
      exact congrArg _ (h.afterInit (hinit hs)).1
    · intro hs hno
      rw [moved_currentState] at hs
      rw [hentry hs] at hno
      have hsha := updateDoneEntry_version env _ hno
      rw [hsha]
      exact congrArg _ (h.afterInit (hinit hs)).1

/-- A turn that confirms the image. -/
theorem ConfirmInv.confirms (h : ConfirmInv env info w) (hno : .failUpdateAndReset ∉ w.log)
    (hc : (consume env evt w).confirmations ≠ w.confirmations) :
    env.gitSha = info.gitSHA ∧
      (w.core.currentState = .init ∧ bmDfuClientConfirmIsEnabled env w = false ∨
        w.core.currentState = .clientRebootDone ∧
        ∃ buf, evt = { type := .updateEnd, buf := some buf }) := by
  rcases consume_unconfirmed env evt h.settled hc with hs | ⟨hs, -, hnew⟩
  · refine ⟨h.version hs hno, .inr ⟨hs, ?_⟩⟩
    have hafter : w.afterRun env evt = (sClientUpdateDoneRun env (w.withEvent evt)).2 := by
      simp [World.afterRun, hs, dfuStates]
    apply updateDoneRun_confirms env (w.withEvent evt)
    intro hrun
    rw [← hafter] at hrun
    obtain ⟨-, ⟨-, hu⟩ | ⟨-, hnext, hu⟩⟩ := consume_cases env evt h.settled
    · rw [hu] at hc
      exact hc hrun
    · rw [hu] at hc
      refine hc (hrun.trans (moved_unconfirmed env ?_))
      intro hn
      rw [hn, hs] at hnext
      simp [nextStates] at hnext
  · obtain ⟨hinfo, hlog⟩ : (w.afterRun env evt).rebootInfo = info ∧
        (w.afterRun env evt).log = w.log :=
      h.afterInit hs
    obtain ⟨hcur, ⟨-, hu⟩ | ⟨-, -, hu⟩⟩ := consume_cases env evt h.settled
    · rw [hu] at hc
      exact absurd (congrArg (List.filter Effect.isConfirmed) hlog) hc
    · rw [hu, moved_eq_entry env (hcur.trans hs) (by decide) hnew] at hc
      have hentry : ¬ Unconfirmed ((w.afterRun env evt).entering .clientRebootDone)
          (sClientUpdateDoneEntry env ((w.afterRun env evt).entering .clientRebootDone)).2 := by
        intro hun
        refine hc (Eq.trans hun ?_)
        exact congrArg (List.filter Effect.isConfirmed) hlog
      obtain ⟨hsha, hoff⟩ := updateDoneEntry_confirms env _ hentry
      refine ⟨hsha.trans (congrArg _ hinfo), .inl ⟨hs, ?_⟩⟩
      unfold bmDfuClientConfirmIsEnabled at hoff ⊢
      rw [← hoff, show ((w.afterRun env evt).entering .clientRebootDone).log = w.log from hlog]

/-! ## Runs -/

theorem EndsFrom.queueSend {host : UInt64} (h : EndsFrom env host w.queue) (evt : BmDfuEvent)
    (hevt : evt.type = .updateEnd → ∀ buf ∈ evt.buf, srcNodeId env.beyond buf.bytes = host) :
    EndsFrom env host (bmQueueSend evt w).2.queue := by
  unfold bmQueueSend
  split
  · intro e he
    rcases List.mem_append.mp he with hmem | hmem
    · exact h e hmem
    · rw [List.mem_singleton.mp hmem]
      exact hevt
  · exact h

/-- A frame is looked at when it arrives: in Init by the condition, later by the machine. -/
theorem ConfirmInv.arrives (h : ConfirmInv env info w) (buf : BmDfuBuf)
    (hs : w.core.currentState ∈ [.init, .clientRebootDone])
    (hcond : HostConfirms env info.hostNodeId w (.frame buf.bytes)) :
    EndsFrom env info.hostNodeId (bmDfuProcessMessage env buf w).queue := by
  unfold bmDfuProcessMessage bmFree
  dsimp only
  split
  · exact h.ends hs
  next hdst =>
    split
    · exact h.ends hs
    next hvalid =>
      rw [not_not] at hdst hvalid
      split
      next type htype =>
        have hsend := (h.ends hs).queueSend { type := type, buf := some buf } (by
          rintro rfl b hb
          cases hb
          simp only [List.mem_cons, List.not_mem_nil, or_false] at hs
          rcases hs with hs | hs
          · exact hcond hs hdst.symm htype
          · simp only [validPacket, hs, bmDfuClientHostNodeValid, beq_iff_eq] at hvalid
            rw [← hvalid, h.host hs])
        split <;> exact hsend
      · exact h.ends hs

theorem ConfirmInv.queued (h : ConfirmInv env info w) {a : Action} (ha : a ≠ .turn)
    (hs : w.core.currentState ∈ [.init, .clientRebootDone])
    (hcond : HostConfirms env info.hostNodeId w a) :
    EndsFrom env info.hostNodeId (act env w a).queue := by
  cases a with
  | turn => exact absurd rfl ha
  | frame payload =>
    have hmalloc : ConfirmInv env info (bmMalloc env w).2 :=
      ⟨h.settled, h.recorded, h.ends, h.host, fun hs hno => h.version hs fun hmem =>
        hno (List.mem_cons_of_mem _ hmem)⟩
    simp only [act, dfuCopyAndProcessMessage]
    split
    · split
      · exact hmalloc.arrives _ hs hcond
      · exact h.ends hs
    · exact h.ends hs
  | chunkTimer | ackTimer | updateTimer =>
    apply (h.ends hs).queueSend
    intro htype
    cases htype
  | heartbeatTimer => exact h.ends hs
  | initiateUpdate info dest fn timeoutMs internal =>
    -- an update is started in Idle only
    have hidle : w.core.currentState ≠ .idle := by
      intro hidle
      simp [hidle] at hs
    simp only [act, bmDfuInitiateUpdate, bmFree]
    split
    · exact h.ends hs
    · cases fn <;> exact h.ends hs
  | queueData data =>
    simp only [act, bmDfuHostQueueData]
    split <;> exact h.ends hs

theorem ConfirmInv.step (h : ConfirmInv env info w) {a : Action}
    (hcond : HostConfirms env info.hostNodeId w a) : ConfirmInv env info (act env w a) := by
  by_cases ha : a = .turn
  · subst ha
    cases hq : w.queue with
    | nil =>
      rw [act_turn_nil env hq]
      exact h
    | cons evt rest =>
      rw [act_turn_cons env hq]
      have hrest : ConfirmInv env info (w.withQueue rest) := by
        refine ⟨h.settled, h.recorded, fun hs => ?_, h.host, h.version⟩
        have hends := h.ends hs
        rw [hq] at hends
        exact hends.tail
      have hcons : ConfirmInv env info (consume env evt (w.withQueue rest)) := hrest.consumed
      generalize consume env evt (w.withQueue rest) = u at hcons ⊢
      have hlog : u.log <:+ (u.released evt).log := by
        unfold World.released
        split
        · exact List.suffix_cons _ _
        · exact List.suffix_rfl
      refine ⟨?_, ?_, ?_, ?_, ?_⟩
      · unfold Settled
        rw [released_core]
        exact hcons.settled
      · rw [released_core, released_rebootInfo]
        exact hcons.recorded
      · rw [released_core, released_queue]
        exact hcons.ends
      · rw [released_core, released_client]
        exact hcons.host
      · rw [released_core]
        exact fun hs hno => hcons.version hs fun hmem => hno (hlog.subset hmem)
  · have hout := act_outside env w ha
    refine ⟨act_settled env h.settled a, ?_, ?_, ?_, ?_⟩
    · rw [hout.currentState, hout.rebootInfo]
      exact h.recorded
    · rw [hout.currentState]
      exact fun hs => h.queued ha hs hcond
    · rw [hout.currentState, hout.client]
      exact h.host
    · rw [hout.currentState]
      exact fun hs hno => h.version hs fun hmem => hno (hout.log.subset hmem)

end Step

/-- The next turn takes an End frame of `host` that reports success, in ClientRebootDone. -/
def HostSucceeds (env : Env) (host : UInt64) (w : World) : Prop :=
  w.core.currentState = .clientRebootDone ∧ ∃ evt ∈ w.queue.head?, evt.type = .updateEnd ∧
    ∃ buf ∈ evt.buf, resultSuccess env.beyond buf.bytes ≠ 0 ∧ srcNodeId env.beyond buf.bytes = host

instance (env : Env) (host : UInt64) (w : World) : Decidable (HostSucceeds env host w) :=
  inferInstanceAs (Decidable (_ ∧ ∃ evt ∈ w.queue.head?, _ ∧ ∃ buf ∈ evt.buf, _))

/-- In every run in which the End frames that arrive in Init come from the recorded host and the End
frames taken in ClientRebootDone report success, an image is confirmed only if it is the recorded
one, and either without confirmation by the host being asked for or by a successful End of the
host. -/
theorem confirmed_by_host (env : Env) (self : UInt64) (info : RebootClientUpdateInfo)
    (flash : Nat → UInt8) (as : List Action) (a : Action)
    (hcond : Along (act env) (HostConfirms env info.hostNodeId) (bmDfuInit self info flash)
      (as ++ [a])) :
    let w := as.foldl (act env) (bmDfuInit self info flash)
    .failUpdateAndReset ∉ w.log → (act env w a).confirmations ≠ w.confirmations →
      env.gitSha = info.gitSHA ∧
        (w.core.currentState = .init ∧ bmDfuClientConfirmIsEnabled env w = false ∨
          HostSucceeds env info.hostNodeId w) := by
  intro w hno hc
  rw [along_append] at hcond
  have hinit : ConfirmInv env info (bmDfuInit self info flash) := by
    refine ⟨(fun h => by cases h), fun _ => rfl, fun _ => ?_, (fun h => by cases h),
      (fun h => by cases h)⟩
    intro evt hevt htype
    rw [List.mem_singleton.mp hevt] at htype
    cases htype
  have hw : ConfirmInv env info w := foldl_invariant (fun w a h hc => h.step hc) hinit hcond.1
  have hturn : a = .turn := by
    by_contra ha
    refine hc (act_seen ?_ env w ha)
    intro e he
    cases e <;> simp_all [Effect.ofIntake, Effect.isConfirmed]
  subst hturn
  cases hq : w.queue with
  | nil =>
    rw [act_turn_nil env hq] at hc
    exact absurd rfl hc
  | cons evt rest =>
    rw [act_turn_cons env hq] at hc
    have hrest : ConfirmInv env info (w.withQueue rest) := by
      refine ⟨hw.settled, hw.recorded, fun hs => ?_, hw.host, hw.version⟩
      have hends := hw.ends hs
      rw [hq] at hends
      exact hends.tail
    have hcons : (consume env evt (w.withQueue rest)).confirmations ≠
        (w.withQueue rest).confirmations := by
      intro heq
      exact hc ((released_seen evt _ fun _ => rfl).trans heq)
    obtain ⟨hsha, ⟨hs, hoff⟩ | ⟨hs, buf, hevt⟩⟩ := hrest.confirms hno hcons
    · exact ⟨hsha, .inl ⟨hs, hoff⟩⟩
    · have hhead : w.queue.head? = some { type := .updateEnd, buf := some buf } := by
        rw [hq, hevt]
        rfl
      have hmem : { type := .updateEnd, buf := some buf } ∈ w.queue := List.mem_of_mem_head? hhead
      refine ⟨hsha, .inr ⟨hs, _, hhead, rfl, buf, rfl, ?_, ?_⟩⟩
      · exact hcond.2.1 hs _ hhead rfl buf rfl
      · refine hw.ends ?_ _ hmem rfl buf rfl
        rw [show w.core.currentState = .clientRebootDone from hs]
        decide

/-- Node 7 has rebooted into version 1, which node 9 sent, and gets a frame. -/
def rebootedInto : RebootClientUpdateInfo := ⟨dfuRebootMagic, 0, 0, 9, 1⟩

def endReceived (frame : List UInt8) : List Action := [.turn, .turn, .frame frame]

theorem confirmed_by_host_success :
    let env := Env.steady 1 4096 []
    let w := (endReceived (resultFrame bcmpDFUEndMessage 9 7 1 .none)).foldl (act env)
      (bmDfuInit 7 rebootedInto fun _ => 0)
    (act env w .turn).confirmations ≠ w.confirmations ∧ env.gitSha = rebootedInto.gitSHA ∧
      (w.core.currentState = .init ∧ bmDfuClientConfirmIsEnabled env w = false ∨
        HostSucceeds env 9 w) :=
  ⟨by decide +kernel, confirmed_by_host _ 7 rebootedInto (fun _ => 0) _ .turn (by decide +kernel)
    (by decide +kernel) (by decide +kernel)⟩

/-- The host reports a failure, and the client confirms the image. -/
theorem endReceived_failure :
    let env := Env.steady 1 4096 []
    let w := (endReceived (resultFrame bcmpDFUEndMessage 9 7 0 .aborted)).foldl (act env)
      (bmDfuInit 7 rebootedInto fun _ => 0)
    .failUpdateAndReset ∉ w.log ∧ (act env w .turn).confirmations = [.setConfirmed] ∧
      w.confirmations = [] ∧ bmDfuClientConfirmIsEnabled env w = true ∧ ¬ HostSucceeds env 9 w := by
  decide +kernel

end BmCore.Dfu
