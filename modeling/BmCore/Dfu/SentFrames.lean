import BmCore.Dfu.Link

/-!
# Who sends and asks for chunks

Only a host that handles a chunk request sends a Payload frame, and only a client that enters
Receiving or handles an event there sends a PayloadReq frame. -/
namespace BmCore.Dfu
open Library

/-- A frame of a type was sent. -/
def Effect.sends (type : UInt8) : Effect → Bool
  | .tx frame r => r == .ok && frame.head? == some type
  | _ => false

/-- The frames of a type that a node has sent, from the first to the last. -/
def World.framesOf (type : UInt8) (w : World) : List (List UInt8) :=
  ((w.seen (Effect.sends type)).filterMap Effect.sentFrame).reverse

theorem framesOf_of_seen {type : UInt8} {w u : World}
    (h : u.seen (Effect.sends type) = w.seen (Effect.sends type)) :
    u.framesOf type = w.framesOf type := by
  rw [World.framesOf, World.framesOf, h]

/-- A frame of the type that was sent. -/
theorem framesOf_tx {type : UInt8} {frame : List UInt8} (hhead : frame.head? = some type)
    (w : World) :
    (w.emit (.tx frame .ok)).framesOf type = w.framesOf type ++ [frame] := by
  simp [World.framesOf, World.seen, Effect.sends, hhead, Effect.sentFrame]

/-- A type whose frames carry chunks or ask for them. -/
def OfChunks (type : UInt8) : Prop := type = bcmpDFUPayloadMessage ∨ type = bcmpDFUPayloadReqMessage

instance (type : UInt8) : Decidable (OfChunks type) := inferInstanceAs (Decidable (_ ∨ _))

/-- Nothing of a type is sent on the way from one world to the other. -/
def Quiet (type : UInt8) (w u : World) : Prop :=
  u.seen (Effect.sends type) = w.seen (Effect.sends type)

namespace Quiet
variable {type : UInt8} {w u v : World}

theorem refl (w : World) : Quiet type w w := rfl

theorem trans (h : Quiet type w u) (g : Quiet type u v) : Quiet type w v := Eq.trans g h

theorem framesOf (h : Quiet type w u) : u.framesOf type = w.framesOf type := framesOf_of_seen h

theorem of_log (h : u.log = w.log) : Quiet type w u := by
  rw [Quiet, World.seen, World.seen, h]

theorem emit {e : Effect} (he : e.sends type = false) (w : World) : Quiet type w (w.emit e) := by
  simp [Quiet, World.seen, he]

end Quiet

/-! ## Building blocks -/

section Blocks
variable {type : UInt8} (env : Env) (w : World)

theorem quiet_setPending (s : BmDfuState) : Quiet type w (bmDfuSetPendingStateChange s w) :=
  .of_log (setPending_log s w)

theorem quiet_clientError (err : BmDfuErr) : Quiet type w
    (bmDfuClientTransitionToError env err w) := by
  simp [Quiet, World.seen, Effect.sends]

theorem quiet_hostError (err : BmDfuErr) : Quiet type w (bmDfuHostTransitionToError env err w) :=
  hostError_seen env err w fun _ _ => rfl

theorem quiet_clientTimerErrCheck (call : BmErr × World) :
    Quiet type call.2 (clientTimerErrCheck env call).2 := by
  unfold clientTimerErrCheck
  split
  · exact quiet_clientError env _ _
  · exact .refl _

theorem quiet_hostTimerErrCheck (call : BmErr × World) :
    Quiet type call.2 (hostTimerErrCheck env call).2 := by
  unfold hostTimerErrCheck
  split
  · exact quiet_hostError env _ _
  · exact .refl _

theorem quiet_processPayload (buf : List UInt8) : Quiet type w (bmDfuProcessPayload env buf w).2 :=
  bmDfuProcessPayload_seen (fun _ _ _ => rfl) env w buf

theorem quiet_processEnd : Quiet type w (bmDfuProcessEnd env w).2 :=
  bmDfuProcessEnd_seen (fun _ _ _ => rfl) env w rfl

theorem quiet_recordDivision (info : BmDfuImgInfo) : Quiet type w (recordDivision info w) := by
  unfold recordDivision
  split
  · exact .emit rfl w
  · exact .refl w

theorem quiet_fillChunk (len : Nat) : Quiet type w (fillChunk env len w).2.2.2 := by
  unfold fillChunk
  dsimp only
  split
  · exact .emit rfl w
  · split
    · exact .emit rfl (w.withHost _)
    · exact .refl w

theorem quiet_hostUpdateEntry : Quiet type w (sHostUpdateEntry env w).2 := by
  unfold sHostUpdateEntry bmDfuHostStartUpdateTimer
  dsimp only
  split
  · exact .emit rfl w
  · split <;> simp [Quiet, World.seen, Effect.sends]

theorem quiet_hostUpdateExit : Quiet type w (sHostUpdateExit w).2 := by
  unfold sHostUpdateExit
  split
  · exact .emit rfl w
  · exact .refl w

theorem quiet_errorEntry : Quiet type w (sErrorEntry w).2 := errorEntry_seen (fun _ _ _ _ => rfl) w

end Blocks

/-! ## Functions that neither send nor ask for chunks -/

section Neither
variable {type : UInt8} (htype : OfChunks type) (env : Env) (w : World)
include htype

/-- A frame of another type. -/
theorem Quiet.tx {other : UInt8} {frame : List UInt8} (hhead : frame.head? = some other)
    (hother : ¬OfChunks other) (r : BmErr) : Quiet type w (w.emit (.tx frame r)) := by
  have hne : other ≠ type := by
    rintro rfl
    exact hother htype
  apply Quiet.emit
  simp [Effect.sends, hhead, hne]

theorem quiet_sendAck (dst : UInt64) (ok : UInt8) (err : BmDfuErr) :
    Quiet type w (bmDfuSendAck env dst ok err w) :=
  Quiet.tx htype w rfl (by decide) _

theorem quiet_updateEnd (dst : UInt64) (ok : UInt8) (err : BmDfuErr) :
    Quiet type w (bmDfuUpdateEnd env dst ok err w) :=
  Quiet.tx htype w rfl (by decide) _

theorem quiet_clientAbort (err : BmDfuErr) : Quiet type w (bmDfuClientAbort env err w) :=
  Quiet.tx htype w rfl (by decide) _

theorem quiet_sendRebootRequest : Quiet type w (bmDfuClientSendRebootRequest env w) :=
  Quiet.tx htype w rfl (by decide) _

theorem quiet_sendBootComplete (dst : UInt64) :
    Quiet type w (bmDfuClientSendBootComplete env dst w) :=
  Quiet.tx htype w rfl (by decide) _

theorem quiet_hostReqUpdate : Quiet type w (bmDfuHostReqUpdate env w) :=
  Quiet.tx htype w rfl (by decide) _

theorem quiet_prepareSlot (info : BmDfuImgInfo) : Quiet type w (clientPrepareSlot env info w) := by
  have herase : Quiet type w (bmDfuClientFlashAreaErase env 0 env.flashAreaSize.toNat w).2 := by
    simp [Quiet, World.seen, Effect.sends]
  unfold clientPrepareSlot
  dsimp only
  split
  · split
    · refine Quiet.trans ?_ (quiet_clientError env _ _)
      exact herase.trans (quiet_sendAck htype env _ _ _ _)
    · refine Quiet.trans ?_ (quiet_setPending _ _)
      refine Quiet.trans ?_ (.of_log rfl)
      exact herase.trans (quiet_sendAck htype env _ _ _ _)
  · exact quiet_sendAck htype env _ _ _ _

theorem quiet_takeStart (info : BmDfuImgInfo) : Quiet type w (clientTakeStart env info w) := by
  have hopen : Quiet type w (bmDfuClientFlashAreaOpen env ((recordDivision info w).withClient
      { (recordDivision info w).client with
        imageSize := info.imageSize.toNat
        numChunks := numChunksOf info
        crc16 := info.crc16 })).2 := by
    refine (quiet_recordDivision w info).trans ?_
    simp [Quiet, World.seen, Effect.sends]
  unfold clientTakeStart
  dsimp only
  split
  · refine Quiet.trans ?_ (quiet_clientError env _ _)
    exact hopen.trans (quiet_sendAck htype env _ _ _ _)
  · exact hopen.trans (quiet_prepareSlot htype env _ info)

theorem quiet_processUpdateRequest : Quiet type w (bmDfuClientProcessUpdateRequest env w) := by
  unfold bmDfuClientProcessUpdateRequest
  split
  · exact .refl w
  next buf _ =>
    have hfrom : Quiet type w (w.withClient
        { w.client with hostNodeId := srcNodeId env.beyond buf.bytes }) :=
      .of_log (withClient_log w _)
    dsimp only
    split
    · split
      · refine Quiet.trans ?_ (quiet_clientError env _ _)
        exact hfrom.trans (quiet_clientAbort htype env _ _)
      · exact hfrom.trans (quiet_takeStart htype env _ _)
    · exact hfrom.trans (quiet_sendAck htype env _ _ _ _)

theorem quiet_rebootReqRun : Quiet type w (sClientRebootReqRun env w).2 := by
  have hretry : Quiet type w (w.withClient { w.client with
      chunkRetryNum := (w.client.chunkRetryNum + 1) % 2 ^ 8 }) := .of_log (withClient_log w _)
  unfold sClientRebootReqRun
  dsimp only
  split
  · exact Quiet.trans (.emit rfl w) (quiet_setPending _ _)
  · exact .refl w
  · split
    · refine Quiet.trans ?_ (quiet_clientError env _ _)
      exact hretry.trans (quiet_clientAbort htype env _ _)
    · refine Quiet.trans ?_ (.emit rfl _)
      exact hretry.trans (quiet_sendRebootRequest htype env _)
  · exact .refl w

theorem quiet_updateDoneRun : Quiet type w (sClientUpdateDoneRun env w).2 := by
  have hretry : Quiet type w (w.withClient { w.client with
      chunkRetryNum := (w.client.chunkRetryNum + 1) % 2 ^ 8 }) := .of_log (withClient_log w _)
  unfold sClientUpdateDoneRun bmDfuClientFailUpdateAndReboot
  dsimp only
  split
  · refine Quiet.trans ?_ (quiet_setPending _ _)
    refine Quiet.trans ?_ (quiet_updateEnd htype env _ _ _ _)
    exact Quiet.trans (.emit rfl w) (.emit rfl _)
  · exact .refl w
  · split
    · refine Quiet.trans ?_ (.emit rfl _)
      refine Quiet.trans ?_ (.of_log rfl)
      exact hretry.trans (quiet_clientAbort htype env _ _)
    · refine Quiet.trans ?_ (.emit rfl _)
      exact hretry.trans (quiet_sendBootComplete htype env _ _)
  · exact .refl w

theorem quiet_validatingEntry : Quiet type w (sClientValidatingEntry env w).2 := by
  unfold sClientValidatingEntry
  split
  · exact (quiet_updateEnd htype env w _ _ _).trans (quiet_clientError env _ _)
  · split
    · exact quiet_setPending w _
    · exact (quiet_updateEnd htype env w _ _ _).trans (quiet_clientError env _ _)

theorem quiet_rebootReqEntry : Quiet type w (sClientRebootReqEntry env w).2 := by
  unfold sClientRebootReqEntry
  dsimp only
  refine Quiet.trans ?_ (.emit rfl _)
  refine Quiet.trans ?_ (quiet_sendRebootRequest htype env _)
  exact .of_log rfl

theorem quiet_updateDoneEntry : Quiet type w (sClientUpdateDoneEntry env w).2 := by
  have hfrom : Quiet type w (w.withClient { w.client with
      hostNodeId := w.rebootInfo.hostNodeId, chunkRetryNum := 0 }) := .of_log (withClient_log w _)
  unfold sClientUpdateDoneEntry bmDfuClientConfirmEnable bmDfuClientFailUpdateAndReboot
  dsimp only
  split
  · split
    · refine Quiet.trans ?_ (.emit rfl _)
      refine Quiet.trans ?_ (.emit rfl _)
      exact hfrom.trans (.of_log rfl)
    · refine Quiet.trans ?_ (.emit rfl _)
      exact hfrom.trans (quiet_sendBootComplete htype env _ _)
  · refine Quiet.trans ?_ (.emit rfl _)
    refine Quiet.trans ?_ (.of_log rfl)
    exact hfrom.trans (quiet_updateEnd htype env _ _ _ _)

theorem quiet_reqUpdateRun : Quiet type w (sHostReqUpdateRun env w).2 := by
  have hretry : Quiet type w (w.withHost { w.host with
      ackRetryNum := (w.host.ackRetryNum + 1) % 2 ^ 8 }) := .of_log (withHost_log w _)
  have hstop : Quiet type w (bmTimerStop env .ack w).2 := .emit rfl w
  unfold sHostReqUpdateRun
  dsimp only
  split
  · split
    · exact hstop.trans (quiet_hostError env _ _)
    · split
      · split
        · exact hstop.trans (quiet_setPending _ _)
        · exact hstop.trans (quiet_hostError env _ _)
      · exact hstop
  · split
    · exact hretry.trans (quiet_hostError env _ _)
    · refine Quiet.trans ?_ (quiet_hostTimerErrCheck env _)
      refine Quiet.trans ?_ (.emit rfl _)
      exact hretry.trans (quiet_hostReqUpdate htype env _)
  · exact quiet_hostError env w _
  · exact .refl w

theorem quiet_reqUpdateEntry : Quiet type w (sHostReqUpdateEntry env w).2 := by
  unfold sHostReqUpdateEntry
  dsimp only
  split
  · exact .refl w
  · refine Quiet.trans ?_ (.emit rfl _)
    split
    · refine Quiet.trans ?_ (.of_log rfl)
      refine Quiet.trans ?_ (.emit rfl _)
      refine Quiet.trans ?_ (quiet_hostReqUpdate htype env _)
      exact .of_log rfl
    · refine Quiet.trans ?_ (quiet_hostReqUpdate htype env _)
      exact .of_log rfl

/-- A host that is not asked for a chunk. -/
theorem quiet_hostUpdateRun (h : w.core.currentEvent.type = .chunkRequest →
    w.core.currentEvent.buf = none) :
    Quiet type w (sHostUpdateRun env w).2 := by
  have hstop : Quiet type w (bmTimerStop env .update w).2 := .emit rfl w
  unfold sHostUpdateRun
  dsimp only [bmDfuGetCurrentEvent]
  split
  next ht =>
    rw [h ht]
    exact .refl w
  · exact Quiet.tx htype w rfl (by decide) _
  · split
    · exact quiet_updateEnd htype env w _ _ _
    · exact .refl w
  · split
    · exact hstop.trans (quiet_hostError env _ _)
    · split
      · refine Quiet.trans ?_ (quiet_setPending _ _)
        refine hstop.trans ?_
        unfold hostUpdateComplete
        split
        · exact .emit rfl _
        · exact .refl _
      · exact hstop
  · exact quiet_hostError env w _
  · exact .refl w

theorem quiet_idleRun : Quiet type w (sIdleRun env w).2 := by
  unfold sIdleRun bmDfuHostSetParams
  split
  · exact quiet_processUpdateRequest htype env w
  · refine Quiet.trans ?_ (quiet_setPending _ _)
    exact Quiet.trans (.of_log (withCore_log w _)) (.of_log (withHost_log _ _))
  · exact .refl w

end Neither

/-! ## Payload frames -/

section Payload
variable (env : Env) (w : World)

/-- A frame of another type is no Payload frame. -/
theorem Quiet.payload_tx {other : UInt8} {frame : List UInt8} (hhead : frame.head? = some other)
    (hother : other ≠ bcmpDFUPayloadMessage) (r : BmErr) :
    Quiet bcmpDFUPayloadMessage w (w.emit (.tx frame r)) := by
  apply Quiet.emit
  simp [Effect.sends, hhead, hother]

theorem quiet_reqNextChunk (dst : UInt64) (n : Nat) :
    Quiet bcmpDFUPayloadMessage w (bmDfuReqNextChunk env dst n w) :=
  Quiet.payload_tx w rfl (by decide) _

theorem quiet_nextChunk : Quiet bcmpDFUPayloadMessage w (clientNextChunk env w).2 := by
  have hcount : Quiet bcmpDFUPayloadMessage w (w.withClient { w.client with
      currentChunk := (w.client.currentChunk + 1) % 2 ^ 16, chunkRetryNum := 0 }) :=
      .of_log (withClient_log w _)
  unfold clientNextChunk
  dsimp only
  split
  · refine Quiet.trans ?_ (quiet_clientTimerErrCheck env _)
    refine Quiet.trans ?_ (.emit rfl _)
    exact hcount.trans (quiet_reqNextChunk env _ _ _)
  · have hend := hcount.trans (quiet_processEnd env _)
    split
    · exact hend.trans (quiet_clientError env _ _)
    · exact hend.trans (quiet_setPending _ _)

theorem quiet_acceptChunk (payload : List UInt8) :
    Quiet bcmpDFUPayloadMessage w (clientAcceptChunk env payload w).2 := by
  have htake : Quiet bcmpDFUPayloadMessage w
    (bmDfuProcessPayload env payload (w.withClient { w.client with
      chunkLength := payload.length
      runningCrc16 := crc16Ccitt w.client.runningCrc16 payload })).2 := by
    refine Quiet.trans (.of_log (withClient_log w _)) (quiet_processPayload env _ _)
  unfold clientAcceptChunk
  dsimp only
  refine Quiet.trans ?_ (quiet_nextChunk env _)
  split
  · exact htake.trans (quiet_clientError env _ _)
  · exact htake

theorem quiet_receivingRun : Quiet bcmpDFUPayloadMessage w (sClientReceivingRun env w).2 := by
  have hstop : Quiet bcmpDFUPayloadMessage w (bmTimerStop env .chunk w).2 := .emit rfl w
  unfold sClientReceivingRun clientChunkTimeout clientResync
  dsimp only
  split
  · split
    · exact .refl w
    · split
      · exact hstop.trans (quiet_clientError env _ _)
      · exact hstop.trans (quiet_acceptChunk env _ _)
  · have hretry : Quiet bcmpDFUPayloadMessage w (w.withClient { w.client with
        chunkRetryNum := (w.client.chunkRetryNum + 1) % 2 ^ 8 }) := .of_log (withClient_log w _)
    split
    · refine Quiet.trans ?_ (quiet_clientError env _ _)
      exact hretry.trans (quiet_clientAbort (.inl rfl) env _ _)
    · refine Quiet.trans ?_ (quiet_clientTimerErrCheck env _)
      refine Quiet.trans ?_ (.emit rfl _)
      exact hretry.trans (quiet_reqNextChunk env _ _ _)
  · split
    · exact hstop.trans (quiet_clientError env _ _)
    · refine Quiet.trans ?_ (quiet_clientTimerErrCheck env _)
      refine Quiet.trans ?_ (.emit rfl _)
      refine Quiet.trans ?_ (quiet_reqNextChunk env _ _ _)
      refine Quiet.trans ?_ (.of_log (withClient_log _ _))
      exact hstop.trans (quiet_sendAck (.inl rfl) env _ _ _ _)
  · refine Quiet.trans ?_ (quiet_clientTimerErrCheck env _)
    exact .emit rfl w
  · exact .refl w

theorem quiet_receivingEntry : Quiet bcmpDFUPayloadMessage w (sClientReceivingEntry env w).2 := by
  unfold sClientReceivingEntry
  dsimp only
  refine Quiet.trans ?_ (.emit rfl _)
  refine Quiet.trans ?_ (quiet_reqNextChunk env _ _ _)
  exact .of_log (withClient_log w _)

end Payload

/-! ## The machine -/

section Machine
variable (env : Env) (w : World)

/-- A host that sends a chunk asks for none. -/
theorem quiet_sendChunk (req : List UInt8) :
    Quiet bcmpDFUPayloadReqMessage w (bmDfuHostSendChunk env req w).2 := by
  have hfill : Quiet bcmpDFUPayloadReqMessage w
      (fillChunk env (chunkPayloadLen w.host) (bmMalloc env w).2).2.2.2 :=
    Quiet.trans (.emit rfl w) (quiet_fillChunk env _ _)
  unfold bmDfuHostSendChunk bmFree
  dsimp only
  split
  · exact .emit rfl w
  · split
    · refine Quiet.trans ?_ (.emit rfl _)
      exact hfill.trans (quiet_hostError env _ _)
    · have htx (frame : List UInt8) (hhead : frame.head? = some bcmpDFUPayloadMessage) (u : World)
        (r : BmErr) :
          Quiet bcmpDFUPayloadReqMessage u (u.emit (.tx frame r)) := by
        apply Quiet.emit
        simp [Effect.sends, hhead, bcmpDFUPayloadMessage, bcmpDFUPayloadReqMessage]
      split
      · refine Quiet.trans ?_ (.emit rfl _)
        refine Quiet.trans ?_ (.of_log (withHost_log _ _))
        exact hfill.trans (htx _ rfl _ _)
      · refine Quiet.trans ?_ (.emit rfl _)
        refine Quiet.trans ?_ (quiet_hostError env _ _)
        exact hfill.trans (htx _ rfl _ _)

theorem quiet_hostUpdateRun_requests : Quiet bcmpDFUPayloadReqMessage w
    (sHostUpdateRun env w).2 := by
  by_cases h : w.core.currentEvent.type = .chunkRequest
  · unfold sHostUpdateRun
    simp only [bmDfuGetCurrentEvent, h]
    split
    · split
      · exact Quiet.trans (.emit rfl w) (quiet_hostError env _ _)
      · refine Quiet.trans ?_ (quiet_hostTimerErrCheck env _)
        refine Quiet.trans ?_ (.emit rfl _)
        exact Quiet.trans (.emit rfl w) (quiet_sendChunk env _ _)
    · exact .refl w
  · exact quiet_hostUpdateRun (.inr rfl) env w fun heq => absurd heq h

/-- The event asks a host for a chunk. -/
def asksForChunk (w : World) (evt : BmDfuEvent) : Bool :=
  w.core.currentState = .hostUpdate && evt.type = .chunkRequest && evt.buf.isSome

theorem asksForChunk_eq_false {w : World} {evt : BmDfuEvent}
    (hs : w.core.currentState = .hostUpdate)
    (h : asksForChunk w evt = false) : evt.type = .chunkRequest → evt.buf = none := by
  intro ht
  simpa [asksForChunk, hs, ht] using h

variable {type : UInt8} (htype : OfChunks type) {evt : BmDfuEvent}
include htype

/-- Chunks are sent by a host that is asked for one, and asked for in Receiving. -/
theorem afterRun_quiet (hchunk : type = bcmpDFUPayloadMessage → asksForChunk w evt = false)
    (hreq : type = bcmpDFUPayloadReqMessage → w.core.currentState ≠ .clientReceiving) :
    Quiet type w (w.afterRun env evt) := by
  have hevt : Quiet type w (w.withEvent evt) := .of_log rfl
  refine hevt.trans ?_
  unfold World.afterRun
  cases hs : w.core.currentState with
  | init =>
    simp only [dfuStates, sInitRun]
    split
    · split <;> exact quiet_setPending _ _
    · exact .refl _
  | idle => exact quiet_idleRun htype env _
  | error | clientValidating | clientActivating => exact .refl _
  | clientReceiving =>
    rcases htype with rfl | rfl
    · exact quiet_receivingRun env _
    · exact absurd hs (hreq rfl)
  | clientRebootReq => exact quiet_rebootReqRun htype env _
  | clientRebootDone => exact quiet_updateDoneRun htype env _
  | hostReqUpdate => exact quiet_reqUpdateRun htype env _
  | hostUpdate =>
    rcases htype with rfl | rfl
    · exact quiet_hostUpdateRun (.inl rfl) env _ (asksForChunk_eq_false hs (hchunk rfl))
    · exact quiet_hostUpdateRun_requests env _

theorem onEntry_quiet (hreq : type = bcmpDFUPayloadReqMessage →
    w.core.currentState ≠ .clientReceiving) :
    Quiet type w (w.onEntry env) := by
  unfold World.onEntry
  cases hs : w.core.currentState with
  | init | idle => exact .of_log rfl
  | error => exact quiet_errorEntry w
  | clientReceiving =>
    rcases htype with rfl | rfl
    · exact quiet_receivingEntry env w
    · exact absurd hs (hreq rfl)
  | clientValidating => exact quiet_validatingEntry htype env w
  | clientRebootReq => exact quiet_rebootReqEntry htype env w
  | clientRebootDone => exact quiet_updateDoneEntry htype env w
  | clientActivating => exact .emit rfl w
  | hostReqUpdate => exact quiet_reqUpdateEntry htype env w
  | hostUpdate => exact quiet_hostUpdateEntry env w

theorem moved_quiet (hreq : type = bcmpDFUPayloadReqMessage → w.core.newState ≠ .clientReceiving) :
    Quiet type w (w.moved env) := by
  by_cases h : w.core.currentState = .hostUpdate
  · rw [moved_eq_of_hostUpdate env h]
    exact (quiet_hostUpdateExit w).trans
      (onEntry_quiet env ((sHostUpdateExit w).2.entering w.core.newState) htype hreq)
  · rw [moved_eq env h]
    exact onEntry_quiet env (w.entering w.core.newState) htype hreq

omit htype in
/-- Payload frames are sent in answer to a request. -/
theorem afterRun_payloads (h : asksForChunk w evt = false) :
    Quiet bcmpDFUPayloadMessage w (w.afterRun env evt) :=
  afterRun_quiet env w (.inl rfl) (fun _ => h) fun heq => absurd heq (by decide)

omit htype in
theorem moved_payloads : Quiet bcmpDFUPayloadMessage w (w.moved env) :=
  moved_quiet env w (.inl rfl) fun heq => absurd heq (by decide)

end Machine

/-! ## Actions -/

section Actions
variable {type : UInt8} (env : Env) (w : World)

theorem quiet_queueSend (evt : BmDfuEvent) : Quiet type w (bmQueueSend evt w).2 := by
  unfold bmQueueSend
  split
  · exact .of_log rfl
  · exact .refl w

theorem quiet_processMessage (buf : BmDfuBuf) : Quiet type w (bmDfuProcessMessage env buf w) := by
  unfold bmDfuProcessMessage bmFree
  dsimp only
  split
  · exact .emit rfl w
  · split
    · exact .emit rfl w
    · split
      · split
        · exact (quiet_queueSend w _).trans (.emit rfl _)
        · exact quiet_queueSend w _
      · exact .refl w

theorem quiet_refuse (cb : Option UpdateFinishCb) (dest : UInt64) :
    Quiet type w (match cb with
      | some cb => w.emit (.finishCallback cb false .inProgress dest)
      | none => w) := by
  split
  · exact .emit rfl w
  · exact .refl w

theorem quiet_initiateUpdate (info : BmDfuImgInfo) (dest : UInt64) (fn : Option Nat)
    (timeoutMs : Nat)
    (internal : Bool) : Quiet type w
    (bmDfuInitiateUpdate env info dest fn timeoutMs internal w).2 := by
  have hmalloc : Quiet type w (bmMalloc env w).2 := .emit rfl w
  unfold bmDfuInitiateUpdate bmFree
  dsimp only
  split
  · exact .refl w
  · split
    · exact quiet_refuse w _ dest
    · split
      · exact hmalloc
      · split
        · refine Quiet.trans ?_ (quiet_refuse _ _ dest)
          refine Quiet.trans ?_ (.emit rfl _)
          exact hmalloc.trans (quiet_queueSend _ _)
        · refine Quiet.trans ?_ (.of_log (withCore_log _ _))
          exact hmalloc.trans (quiet_queueSend _ _)

/-- Chunks are sent and asked for by the event thread. -/
theorem act_quiet (htype : OfChunks type) {a : Action} (ha : a ≠ .turn) :
    Quiet type w (act env w a) := by
  cases a with
  | frame payload =>
    unfold act dfuCopyAndProcessMessage
    dsimp only
    split
    · split
      · exact Quiet.trans (.emit rfl w) (quiet_processMessage env _ _)
      · exact .emit rfl w
    · exact .refl w
  | chunkTimer | ackTimer | updateTimer => exact quiet_queueSend w _
  | heartbeatTimer => exact Quiet.tx htype w rfl (by decide) _
  | initiateUpdate info dest fn timeoutMs internal =>
    exact quiet_initiateUpdate env w info dest fn timeoutMs internal
  | queueData data =>
    unfold act bmDfuHostQueueData
    dsimp only
    split
    · exact .emit rfl w
    · exact .refl w
  | turn => exact absurd rfl ha

end Actions

end BmCore.Dfu
