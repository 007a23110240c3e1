import BmCore.Dfu.Roles

/-!
# A Start frame in Idle

When the client takes an offered image, and what it has done by then: the slot is open and
erased, the Ack is sent, and the parameters of the Start frame are in the client context and in
the record that survives the reset.
-/
namespace BmCore.Dfu
open Library

/-- The Start frame in `buf` is taken: it is wanted, its chunks fit, and the slot is opened, is
large enough and is erased. -/
def AcceptsStart (env : Env) (w : World) (buf : BmDfuBuf) : Prop :=
  let info := imgInfo env.beyond buf.bytes
  let call := (recordDivision info w).log.length
  wantsUpdate env info = true ∧ info.chunkSize.toNat ≤ bmDfuMaxChunkSize ∧
    env.flashAreaOpen call = .ok ∧ env.flashAreaSize > info.imageSize ∧
    env.flashAreaErase (call + 1) = .ok

instance (env : Env) (w : World) (buf : BmDfuBuf) : Decidable (AcceptsStart env w buf) :=
  inferInstanceAs (Decidable (_ ∧ _ ∧ _ ∧ _ ∧ _))

theorem recordDivision_log (info : BmDfuImgInfo) (w : World) : (recordDivision info w).log =
    if info.chunkSize = 0 then .divisionByZero :: w.log else w.log := by
  unfold recordDivision
  split <;> rfl

/-- Only the number of calls made so far matters. -/
theorem AcceptsStart.congr {env : Env} {w u : World} {buf : BmDfuBuf} (hlog : u.log = w.log)
    (h : AcceptsStart env w buf) : AcceptsStart env u buf := by
  unfold AcceptsStart at h ⊢
  simp only [recordDivision_log, hlog] at h ⊢
  exact h

/-- What taking the Start frame in `buf` does. -/
structure StartTaken (env : Env) (buf : BmDfuBuf) (w u : World) : Prop where
  core : u.core = { w.core with pendingStateChange := true, newState := .clientReceiving }
  client : u.client = { w.client with
    hostNodeId := srcNodeId env.beyond buf.bytes
    imageSize := (imgInfo env.beyond buf.bytes).imageSize.toNat
    numChunks := numChunksOf (imgInfo env.beyond buf.bytes)
    crc16 := (imgInfo env.beyond buf.bytes).crc16 }
  rebootInfo : u.rebootInfo =
    { magic := dfuRebootMagic
      major := (imgInfo env.beyond buf.bytes).majorVer
      minor := (imgInfo env.beyond buf.bytes).minorVer
      hostNodeId := srcNodeId env.beyond buf.bytes
      gitSHA := (imgInfo env.beyond buf.bytes).gitSHA }
  log : ∃ r, u.log =
    .tx (resultFrame bcmpDFUAckMessage w.core.selfNodeId
    (srcNodeId env.beyond buf.bytes) 1 .none) r ::
      .flashAreaErase 0 env.flashAreaSize.toNat .ok :: .flashAreaOpen .ok ::
      (recordDivision (imgInfo env.beyond buf.bytes) w).log

theorem recordDivision_log_withClient (info : BmDfuImgInfo) (w : World) (c : DfuClientCtx) :
    (recordDivision info (w.withClient c)).log = (recordDivision info w).log := by
  simp only [recordDivision_log, withClient_log]

theorem processUpdateRequest_taken {env : Env} {w : World} {buf : BmDfuBuf}
    (hbuf : w.core.currentEvent.buf = some buf) (h : AcceptsStart env w buf) :
    StartTaken env buf w (bmDfuClientProcessUpdateRequest env w) := by
  obtain ⟨hwant, hchunk, hopen, hsize, herase⟩ := h
  have hchunk' : ¬ (imgInfo env.beyond buf.bytes).chunkSize.toNat > bmDfuMaxChunkSize := by omega
  have hu : bmDfuClientProcessUpdateRequest env w =
      clientTakeStart env (imgInfo env.beyond buf.bytes)
        (w.withClient { w.client with hostNodeId := srcNodeId env.beyond buf.bytes }) := by
    unfold bmDfuClientProcessUpdateRequest
    simp only [bmDfuGetCurrentEvent, hbuf, hwant, if_true, hchunk', if_false]
  rw [hu]
  unfold clientTakeStart clientPrepareSlot
  simp only [flashAreaOpen_fst, withClient_log, recordDivision_log_withClient, hopen, ne_eq,
    not_true_eq_false, if_false, flashAreaOpen_snd, hsize, if_true, flashAreaErase_fst, emit_log,
    List.length_cons, herase]
  constructor
  · simp
  · simp
  · simp
  · exact ⟨_, by simp [herase, recordDivision_log_withClient]; rfl⟩

/-- A Start frame that is not taken leaves the record of the running update alone, and the only
change it can ask for is to the error state. -/
theorem processUpdateRequest_refused {env : Env} {w : World}
    (h : ∀ buf, w.core.currentEvent.buf = some buf → ¬ AcceptsStart env w buf) :
    Asks [.error] w.core (bmDfuClientProcessUpdateRequest env w).core ∧
      (bmDfuClientProcessUpdateRequest env w).rebootInfo = w.rebootInfo := by
  unfold bmDfuClientProcessUpdateRequest clientTakeStart clientPrepareSlot
  dsimp only [bmDfuGetCurrentEvent]
  split
  · exact ⟨.refl _, rfl⟩
  next buf hbuf =>
    split
    next hwant =>
      split
      · exact ⟨asks_clientError (by simp) env _ (by simp), by simp⟩
      next hchunk =>
        split
        · exact ⟨asks_clientError (by simp) env _ (by simp), by simp⟩
        next hopen =>
          split
          next hsize =>
            split
            · exact ⟨asks_clientError (by simp) env _ (by simp), by simp⟩
            next herase =>
              -- every check passed, so the frame was taken
              refine absurd ⟨hwant, by omega, ?_, hsize, ?_⟩ (h buf hbuf)
              · simpa [recordDivision_log_withClient] using hopen
              · simpa [recordDivision_log_withClient] using herase
          · exact ⟨.of_eq (by simp), by simp⟩
    · exact ⟨.of_eq (by simp), by simp⟩

/-- The only way from Idle to Receiving. -/
theorem idleRun_toReceiving {env : Env} {w : World} (hpend : w.core.pendingStateChange = false)
    (hu : (sIdleRun env w).2.core.pendingStateChange = true)
    (hnew : (sIdleRun env w).2.core.newState = .clientReceiving) :
    ∃ buf, w.core.currentEvent = { type := .receivedUpdateRequest, buf := some buf } ∧
      AcceptsStart env w buf ∧ StartTaken env buf w (sIdleRun env w).2 := by
  unfold sIdleRun at hu hnew ⊢
  dsimp only at hu hnew ⊢
  split at hu
  next ht =>
    rw [ht] at hnew
    change (bmDfuClientProcessUpdateRequest env w).core.newState = _ at hnew
    by_cases hacc : ∃ buf, w.core.currentEvent.buf = some buf ∧ AcceptsStart env w buf
    · obtain ⟨buf, hbuf, hacc⟩ := hacc
      refine ⟨buf, ?_, hacc, processUpdateRequest_taken hbuf hacc⟩
      cases he : w.core.currentEvent
      rw [he] at ht hbuf
      exact congrArg₂ BmDfuEvent.mk ht hbuf
    · have href := (processUpdateRequest_refused (w := w) (by
        intro buf hbuf hb
        exact hacc ⟨buf, hbuf, hb⟩)).1
      rcases href.target hu with ⟨hp, -⟩ | hmem
      · rw [hpend] at hp
        cases hp
      · rw [hnew] at hmem
        simp at hmem
  · simp_all
  · simp_all

/-- A local update request in Idle. -/
theorem idleRun_beginHost {env : Env} {w : World} {buf : BmDfuBuf}
    (he : w.core.currentEvent = { type := .beginHost, buf := some buf }) :
    (sIdleRun env w).2 = bmDfuSetPendingStateChange .hostReqUpdate
      (bmDfuHostSetParams buf.finishCb buf.timeoutMs (w.withCore { w.core with
        updateFinishCallback := buf.finishCb
        clientNodeId := dstNodeId env.beyond buf.bytes })) := by
  simp only [sIdleRun, he]
  rfl

/-- The only way from Idle to the host role. -/
theorem idleRun_toHostReqUpdate {env : Env} {w : World} (hpend : w.core.pendingStateChange = false)
    (hu : (sIdleRun env w).2.core.pendingStateChange = true)
    (hnew : (sIdleRun env w).2.core.newState = .hostReqUpdate) :
    ∃ buf, w.core.currentEvent = { type := .beginHost, buf := some buf } := by
  rcases he : w.core.currentEvent with ⟨type, buf⟩
  simp only [sIdleRun, he] at hu hnew
  split at hu
  · change (bmDfuClientProcessUpdateRequest env w).core.newState = _ at hnew
    by_cases hacc : ∃ buf, w.core.currentEvent.buf = some buf ∧ AcceptsStart env w buf
    · obtain ⟨buf, hbuf, hacc⟩ := hacc
      rw [(processUpdateRequest_taken hbuf hacc).core] at hnew
      cases hnew
    · have href := (processUpdateRequest_refused (w := w) fun b hb h => hacc ⟨b, hb, h⟩).1
      rcases href.target hu with ⟨hp, -⟩ | herr
      · rw [hpend] at hp
        cases hp
      · rw [hnew] at herr
        simp at herr
  next buf => exact ⟨buf, rfl⟩
  · simp [hpend] at hu

/-- A session of a host begins with a local request that is taken in Idle. -/
theorem afterRun_toHostReqUpdate {env : Env} {w : World} {evt : BmDfuEvent} (hw : Settled w)
    (hp : (w.afterRun env evt).core.pendingStateChange = true)
    (hnext : (w.afterRun env evt).core.newState ∈ nextStates w.core.currentState)
    (hnew : (w.afterRun env evt).core.newState = .hostReqUpdate) :
    ∃ buf, w.core.currentState = .idle ∧ evt = { type := .beginHost, buf := some buf } ∧
      ((w.afterRun env evt).entering .hostReqUpdate).core.currentEvent.buf = some buf ∧
      (w.afterRun env evt).moved env =
        (sHostReqUpdateEntry env ((w.afterRun env evt).entering .hostReqUpdate)).2 := by
  rw [hnew] at hnext
  have hidle : w.core.currentState = .idle := by
    revert hnext
    cases w.core.currentState <;> decide
  have hrun : w.afterRun env evt = (sIdleRun env (w.withEvent evt)).2 := by
    rw [World.afterRun, hidle]
    rfl
  have hasks := asks_idleRun env (w.withEvent evt)
  have hnone : (w.withEvent evt).core.pendingStateChange = false :=
    hw.pending_eq_false hidle (by decide)
  obtain ⟨buf, hbuf⟩ := idleRun_toHostReqUpdate hnone (hrun ▸ hp) (hrun ▸ hnew)
  refine ⟨buf, hidle, hbuf, ?_, ?_⟩
  · change (w.afterRun env evt).core.currentEvent.buf = some buf
    rw [hrun, hasks.currentEvent, hbuf]
  · have hcur : (w.afterRun env evt).core.currentState = .idle := by
      rw [hrun, hasks.currentState]
      exact hidle
    rw [moved_eq_entry env hcur (by decide) hnew]
    rfl

/-- A streamed session begins with an empty stream buffer, or with none. -/
theorem reqUpdateEntry_dataQueue {env : Env} {w : World} {buf : BmDfuBuf}
    (hbuf : w.core.currentEvent.buf = some buf) (hint : w.core.internal = false) :
    (sHostReqUpdateEntry env w).2.host.dataQueue =
      if env.streamBufferCreate (w.log.length + 1) then some [] else none := by
  simp only [sHostReqUpdateEntry, bmDfuGetCurrentEvent, hbuf, bmDfuInternal, bmDfuHostReqUpdate_eq,
    emit_core, withHost_core, hint, Bool.false_eq_true, not_false_eq_true, if_true]
  rfl

/-- A smallest update, up to validation: node 9 sends one byte to node 7. -/
def oneByteUpdate : List BmDfuEvent :=
  [{ type := .initSuccess },
    .ofFrame .receivedUpdateRequest (startFrame 9 7 ⟨1, 1, crc16Ccitt 0 [0xAB], 0, 0, 0, 2⟩),
    .ofFrame .imageChunk (payloadFrame 9 7 1 [0xAB]),
    { type := .none }]

end BmCore.Dfu
