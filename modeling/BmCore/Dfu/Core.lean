import BmCore.Common.StateMachine
import BmCore.Dfu.Client
import BmCore.Dfu.Host

/-!
# The DFU core

`dfu_core.c`: the state table, the event thread, the entry points for received frames and for a
local update request, and the state after initialisation.
-/
namespace BmCore.Dfu
open Library

/-! ## Init, Idle and Error -/

def sInitRun (w : World) : BmErr × World :=
  if w.core.currentEvent.type = .initSuccess then
    if w.rebootInfo.magic = dfuRebootMagic then
      (.ok, bmDfuSetPendingStateChange .clientRebootDone w)
    else (.ok, bmDfuSetPendingStateChange .idle w)
  else (.ok, w)

def sIdleEntry (w : World) : BmErr × World := (.ok, w.withRebootInfo .zero)

/-- `s_idle_run`. Only `bmDfuInitiateUpdate` queues a `beginHost` event, always with a buffer. -/
def sIdleRun (env : Env) (w : World) : BmErr × World :=
  match w.core.currentEvent.type, w.core.currentEvent.buf with
  | .receivedUpdateRequest, _ => (.ok, bmDfuClientProcessUpdateRequest env w)
  | .beginHost, some buf =>
    let w := w.withCore { w.core with
      updateFinishCallback := buf.finishCb
      clientNodeId := dstNodeId env.beyond buf.bytes }
    let w := bmDfuHostSetParams w.core.updateFinishCallback buf.timeoutMs w
    (.ok, bmDfuSetPendingStateChange .hostReqUpdate w)
  | _, _ => (.ok, w)

def sErrorRun (w : World) : BmErr × World := (.ok, w)

/-- The completion callback of the core context. -/
def coreUpdateFinish (w : World) : World :=
  match w.core.updateFinishCallback with
  | some cb => w.emit (.finishCallback cb false w.core.error w.core.clientNodeId)
  | none => w

def sErrorEntry (w : World) : BmErr × World :=
  let w := coreUpdateFinish w
  if w.core.error.code < BmDfuErr.flashAccess.code then (.ok, bmDfuSetPendingStateChange .idle w)
  else (.ok, w)

/-! ## The state machine -/

/-- `dfu_states` -/
def dfuStates (env : Env) : BmDfuState → LibSmState World
  | .init => { run := sInitRun }
  | .idle => { run := sIdleRun env, onStateEntry := some sIdleEntry }
  | .error => { run := sErrorRun, onStateEntry := some sErrorEntry }
  | .clientReceiving =>
    { run := sClientReceivingRun env, onStateEntry := some (sClientReceivingEntry env) }
  | .clientValidating =>
    { run := sClientValidatingRun, onStateEntry := some (sClientValidatingEntry env) }
  | .clientRebootReq =>
    { run := sClientRebootReqRun env, onStateEntry := some (sClientRebootReqEntry env) }
  | .clientRebootDone =>
    { run := sClientUpdateDoneRun env, onStateEntry := some (sClientUpdateDoneEntry env) }
  | .clientActivating =>
    { run := sClientActivatingRun, onStateEntry := some sClientActivatingEntry }
  | .hostReqUpdate =>
    { run := sHostReqUpdateRun env, onStateEntry := some (sHostReqUpdateEntry env) }
  | .hostUpdate =>
    { run := sHostUpdateRun env
      onStateExit := some sHostUpdateExit
      onStateEntry := some (sHostUpdateEntry env) }

/-- `bm_dfu_check_transitions` -/
def bmDfuCheckTransitions (w : World) : BmDfuState × World :=
  if w.core.pendingStateChange then
    (w.core.newState, w.withCore { w.core with pendingStateChange := false })
  else (w.core.currentState, w)

def dfuSm (env : Env) : LibSmContext BmDfuState World where
  state := dfuStates env
  current w := w.core.currentState
  setCurrent s w := w.withCore { w.core with currentState := s }
  checkTransitionsForNextState := bmDfuCheckTransitions

/-- The event becomes the current one and the machine makes one iteration. -/
def consume (env : Env) (evt : BmDfuEvent) (w : World) : World :=
  libSmRun (dfuSm env) (w.withCore { w.core with currentEvent := evt })

/-- One turn of `bm_dfu_event_thread`: take an event, run the machine, free the buffer. On an
empty queue the thread is blocked. -/
def bmDfuEventThread (env : Env) (w : World) : World :=
  match w.queue with
  | [] => w
  | evt :: rest =>
    let w := consume env evt (w.withQueue rest)
    match evt.buf with
    | some buf => bmFree buf.ptr w
    | none => w

/-! ## Received frames -/

/-- The event a frame type is translated to. -/
def frameEvent (type : UInt8) : Option BmDfuEvtType :=
  if type = bcmpDFUStartMessage then some .receivedUpdateRequest
  else if type = bcmpDFUPayloadMessage then some .imageChunk
  else if type = bcmpDFUEndMessage then some .updateEnd
  else if type = bcmpDFUAckMessage then some .ackReceived
  else if type = bcmpDFUAbortMessage then some .abort
  else if type = bcmpDFUHeartbeatMessage then some .heartbeat
  else if type = bcmpDFUPayloadReqMessage then some .chunkRequest
  else if type = bcmpDFURebootReqMessage then some .rebootRequest
  else if type = bcmpDFURebootMessage then some .reboot
  else if type = bcmpDFUBootCompleteMessage then some .bootComplete
  else none

/-- The source check made when a frame arrives, against the state at that moment. -/
def validPacket (src : UInt64) (w : World) : Bool :=
  match w.core.currentState with
  | .init | .idle | .error => true
  | .clientReceiving | .clientValidating | .clientRebootReq | .clientRebootDone
  | .clientActivating => bmDfuClientHostNodeValid src w
  | .hostReqUpdate | .hostUpdate => bmDfuHostClientNodeValid src w

/-- `bm_dfu_process_message`. A frame of an unknown type is neither queued nor freed. -/
def bmDfuProcessMessage (env : Env) (buf : BmDfuBuf) (w : World) : World :=
  if w.core.selfNodeId ≠ dstNodeId env.beyond buf.bytes then bmFree buf.ptr w
  else if ¬ validPacket (srcNodeId env.beyond buf.bytes) w then bmFree buf.ptr w
  else
    match frameEvent (frameType env.beyond buf.bytes) with
    | some type =>
      let (err, w) := bmQueueSend { type := type, buf := some buf } w
      if err ≠ .ok then bmFree buf.ptr w else w
    | none => w

/-- `dfu_copy_and_process_message` for the node `self`; a frame for another node leaves the DFU
subsystem alone. -/
def dfuCopyAndProcessMessage (env : Env) (payload : List UInt8) (w : World) : World :=
  if dstNodeId env.beyond payload = w.core.selfNodeId then
    let (ok, w) := bmMalloc env w
    if ok then bmDfuProcessMessage env { ptr := w.log.length, bytes := payload } w else w
  else w

/-! ## Timers and local requests -/

/-- `chunk_timer_handler` -/
def chunkTimerHandler (w : World) : World := (bmQueueSend { type := .chunkTimeout } w).2
/-- `ack_timer_handler` -/
def ackTimerHandler (w : World) : World := (bmQueueSend { type := .ackTimeout } w).2
/-- `heartbeat_timer_handler`, on the timer callback thread. -/
def heartbeatTimerHandler (env : Env) (w : World) : World :=
  bmDfuSendHeartbeat env w.host.clientNodeId w
/-- `update_timer_handler` -/
def updateTimerHandler (w : World) : World := (bmQueueSend { type := .abort } w).2

/-- `bm_dfu_initiate_update`. The callback is tagged with the number of calls made so far, which
no other request shares. -/
def bmDfuInitiateUpdate (env : Env) (info : BmDfuImgInfo) (dest : UInt64) (fn : Option Nat)
    (timeoutMs : Nat) (internal : Bool) (w : World) : Bool × World :=
  let cb : Option UpdateFinishCb := fn.map fun f => { fn := f, call := w.log.length }
  let refuse (w : World) : World :=
    match cb with
    | some cb => w.emit (.finishCallback cb false .inProgress dest)
    | none => w
  if info.chunkSize.toNat > bmDfuMaxChunkSize then (false, w)
  else if w.core.currentState ≠ .idle then (false, refuse w)
  else
    let (ok, w) := bmMalloc env w
    if ¬ ok then (false, w)
    else
      let buf : BmDfuBuf :=
        { ptr := w.log.length
          bytes := startFrame w.core.selfNodeId dest info
          finishCb := cb
          timeoutMs := timeoutMs }
      let (err, w) := bmQueueSend { type := .beginHost, buf := some buf } w
      if err ≠ .ok then (false, refuse (bmFree buf.ptr w))
      else (true, w.withCore { w.core with internal := internal })

/-- The node after `bm_dfu_init`: zeroed contexts, whatever the reset left in the no-init RAM and
in flash, and the `initSuccess` event in the queue. -/
def bmDfuInit (self : UInt64) (info : RebootClientUpdateInfo) (flash : Nat → UInt8) : World where
  core :=
    { currentState := .init
      currentEvent := { type := .none }
      pendingStateChange := false
      newState := .init
      error := .none
      selfNodeId := self
      clientNodeId := 0
      updateFinishCallback := none
      internal := false }
  client :=
    { imageSize := 0
      numChunks := 0
      crc16 := 0
      runningCrc16 := 0
      chunkLength := 0
      imgPageByteCounter := 0
      imgFlashOffset := 0
      imgPageBuf := fun _ => 0
      chunkRetryNum := 0
      currentChunk := 0
      selfNodeId := self
      hostNodeId := 0 }
  host :=
    { ackRetryNum := 0
      imgInfo := ⟨0, 0, 0, 0, 0, 0, 0⟩
      selfNodeId := self
      clientNodeId := 0
      bytesRemaining := 0
      updateCompleteCallback := none
      hostTimeoutMs := 0
      dataQueue := none }
  rebootInfo := info
  queue := [{ type := .initSuccess }]
  flash := flash
  log := []

end BmCore.Dfu
