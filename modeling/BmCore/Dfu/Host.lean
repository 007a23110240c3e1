import BmCore.Dfu.Services

/-!
# The DFU host

`dfu_host.c`: the node that offers an image. It answers each chunk request with the bytes at its
own read position, taken from flash (`internal`) or from the stream buffer.
-/
namespace BmCore.Dfu
open Library

/-- `bm_dfu_host_req_update` -/
def bmDfuHostReqUpdate (env : Env) (w : World) : World :=
  (bcmpTx env (startFrame w.host.selfNodeId w.host.clientNodeId w.host.imgInfo) w).2

/-- `bm_dfu_host_send_reboot` -/
def bmDfuHostSendReboot (env : Env) (w : World) : World :=
  (bcmpTx env (frameHeader bcmpDFURebootMessage w.host.selfNodeId w.host.clientNodeId) w).2

/-- The timers of the host are stopped one after the other until one of them fails to. -/
def stopHostTimers (env : Env) (w : World) : BmErr × World :=
  let (r, w) := bmTimerStop env .update w
  if r ≠ .ok then (.etimedout, w)
  else
    let (r, w) := bmTimerStop env .heartbeat w
    if r ≠ .ok then (.etimedout, w)
    else
      let (r, w) := bmTimerStop env .ack w
      (if r ≠ .ok then .etimedout else .ok, w)

/-- `bm_dfu_host_transition_to_error` -/
def bmDfuHostTransitionToError (env : Env) (err : BmDfuErr) (w : World) : World :=
  let (_, w) := stopHostTimers env w
  let w := bmDfuSetError err w
  bmDfuSetPendingStateChange .error w

/-- `timer_err_check_and_return` of the host. -/
def hostTimerErrCheck (env : Env) (call : BmErr × World) : BmErr × World :=
  if call.1 ≠ .ok then (call.1, bmDfuHostTransitionToError env .aborted call.2) else call

/-- `bm_dfu_host_client_node_valid` -/
def bmDfuHostClientNodeValid (clientNodeId : UInt64) (w : World) : Bool :=
  w.host.clientNodeId == clientNodeId

/-- `bm_dfu_host_set_params` -/
def bmDfuHostSetParams (cb : Option UpdateFinishCb) (timeoutMs : Nat) (w : World) : World :=
  w.withHost { w.host with updateCompleteCallback := cb, hostTimeoutMs := timeoutMs }

/-- `bm_dfu_host_queue_data`: the stream buffer takes as many of the bytes as it has room for. -/
def bmDfuHostQueueData (env : Env) (data : List UInt8) (w : World) : BmErr × World :=
  match w.host.dataQueue with
  | some queued =>
    let (err, room) := env.streamBufferSend w.log.length
    let w := w.emit (.streamBufferSend err)
    (err, w.withHost { w.host with dataQueue := some (queued ++ data.take room) })
  | none => (.einval, w)

/-! ## Sending a chunk -/

/-- The bytes a chunk asks for: a full chunk while that many remain. -/
def chunkPayloadLen (h : DfuHostCtx) : Nat :=
  if h.bytesRemaining ≥ h.imgInfo.chunkSize.toNat then h.imgInfo.chunkSize.toNat
  else h.bytesRemaining

/-- Fill the payload of a chunk of `len` bytes: the answer, the number of bytes the code then
believes it has, and the payload as it lies in the buffer. A stream buffer may hand over fewer
bytes than asked; the rest of the payload is what the allocation held. -/
def fillChunk (env : Env) (len : Nat) (w : World) : BmErr × Nat × List UInt8 × World :=
  let uninit := env.uninit w.log.length
  if bmDfuInternal w then
    let off := (dfuImgStartOffsetBytes + w.host.imgInfo.imageSize.toNat + 2 ^ 32
      - w.host.bytesRemaining) % 2 ^ 32
    let (err, bytes) := env.hostGetChunk w.log.length off len
    (err, len, window uninit bytes 0 len, w.emit (.hostGetChunk off len err))
  else
    match w.host.dataQueue with
    | some data =>
      let (err, avail) := env.streamBufferReceive w.log.length
      let got := (data.take len).take avail
      let w := w.withHost { w.host with dataQueue := some (data.drop got.length) }
      (err, got.length, window uninit got 0 len, w.emit (.streamBufferReceive err))
    | none => (.enomem, len, window uninit [] 0 len, w)

/-- `bm_dfu_host_send_chunk`. The request is only printed: which bytes are sent is decided by
`bytes_remaining`. -/
def bmDfuHostSendChunk (env : Env) (_req : List UInt8) (w : World) : BmErr × World :=
  let len := chunkPayloadLen w.host
  let (ok, w) := bmMalloc env w
  let ptr := w.log.length
  if ¬ ok then (.enomem, w)
  else
    let (err, sent, payload, w) := fillChunk env len w
    if err ≠ .ok then (err, bmFree ptr (bmDfuHostTransitionToError env .flashAccess w))
    else
      let (err, w) := bcmpTx env
        (payloadFrame w.host.selfNodeId w.host.clientNodeId len payload) w
      if err = .ok then
        (err, bmFree ptr (w.withHost
          { w.host with bytesRemaining := w.host.bytesRemaining - sent }))
      else (err, bmFree ptr (bmDfuHostTransitionToError env .imgChunkAccess w))

/-! ## State functions -/

def sHostReqUpdateEntry (env : Env) (w : World) : BmErr × World :=
  match (bmDfuGetCurrentEvent w).buf with
  | none => (.enodata, w)
  | some buf =>
    let info := imgInfo env.beyond buf.bytes
    let w := w.withHost { w.host with
      imgInfo := info
      bytesRemaining := info.imageSize.toNat
      clientNodeId := dstNodeId env.beyond buf.bytes
      ackRetryNum := 0 }
    let w := bmDfuHostReqUpdate env w
    let w :=
      if ¬ bmDfuInternal w then
        let ok := env.streamBufferCreate w.log.length
        let w := w.emit (.streamBufferCreate ok)
        w.withHost { w.host with dataQueue := if ok then some [] else none }
      else w
    bmTimerStart env .ack w

/-- The error an Abort event reports; the update timer sends one without a frame. -/
def abortErr (env : Env) (evt : BmDfuEvent) : BmDfuErr :=
  match evt.buf with
  | some buf => resultErrCode env.beyond buf.bytes
  | none => .aborted

def sHostReqUpdateRun (env : Env) (w : World) : BmErr × World :=
  let evt := bmDfuGetCurrentEvent w
  match evt.type with
  | .ackReceived =>
    let (err, w) := bmTimerStop env .ack w
    if err ≠ .ok then (err, bmDfuHostTransitionToError env .aborted w)
    else match evt.buf with
      | some buf =>
        if resultSuccess env.beyond buf.bytes ≠ 0 then
          (.ok, bmDfuSetPendingStateChange .hostUpdate w)
        else (.ok, bmDfuHostTransitionToError env (resultErrCode env.beyond buf.bytes) w)
      | none => (.einval, w)
  | .ackTimeout =>
    let w := w.withHost { w.host with ackRetryNum := (w.host.ackRetryNum + 1) % 2 ^ 8 }
    if w.host.ackRetryNum ≥ bmDfuMaxAckRetries then
      (.ok, bmDfuHostTransitionToError env .timeout w)
    else
      let w := bmDfuHostReqUpdate env w
      hostTimerErrCheck env (bmTimerStart env .ack w)
  | .abort => (.ok, bmDfuHostTransitionToError env (abortErr env evt) w)
  | _ => (.ok, w)

/-- `bm_dfu_host_start_update_timer` -/
def bmDfuHostStartUpdateTimer (env : Env) (w : World) : BmErr × World :=
  let (r, w) := bmTimerStop env .update w
  if r ≠ .ok then (.etimedout, w)
  else
    let (r, w) := bmTimerChangePeriod env .update w
    if r ≠ .ok then (.etimedout, w)
    else
      let (r, w) := bmTimerStart env .update w
      (if r ≠ .ok then .etimedout else .ok, w)

def sHostUpdateEntry (env : Env) (w : World) : BmErr × World := bmDfuHostStartUpdateTimer env w

/-- The completion callback of the host context. -/
def hostUpdateComplete (success : Bool) (err : BmDfuErr) (w : World) : World :=
  match w.host.updateCompleteCallback with
  | some cb => w.emit (.finishCallback cb success err w.host.clientNodeId)
  | none => w

def sHostUpdateRun (env : Env) (w : World) : BmErr × World :=
  let evt := bmDfuGetCurrentEvent w
  match evt.type with
  | .chunkRequest =>
    match evt.buf with
    | some buf =>
      let (err, w) := bmTimerStart env .heartbeat w
      if err ≠ .ok then (err, bmDfuHostTransitionToError env .aborted w)
      else
        let (_, w) := bmDfuHostSendChunk env buf.bytes w
        hostTimerErrCheck env (bmTimerStop env .heartbeat w)
    | none => (.enodata, w)
  | .rebootRequest => (.ok, bmDfuHostSendReboot env w)
  | .bootComplete =>
    match evt.buf with
    | some _ => (.ok, bmDfuUpdateEnd env w.host.clientNodeId 1 .none w)
    | none => (.enodata, w)
  | .updateEnd =>
    let (err, w) := bmTimerStop env .update w
    if err ≠ .ok then (err, bmDfuHostTransitionToError env .aborted w)
    else match evt.buf with
      | some buf =>
        let w := hostUpdateComplete (resultSuccess env.beyond buf.bytes != 0)
          (resultErrCode env.beyond buf.bytes) w
        (.ok, bmDfuSetPendingStateChange .idle w)
      | none => (.enodata, w)
  | .abort => (.ok, bmDfuHostTransitionToError env (abortErr env evt) w)
  | _ => (.ok, w)

def sHostUpdateExit (w : World) : BmErr × World :=
  match w.host.dataQueue with
  | some _ =>
    let w := w.emit .streamBufferDelete
    (.ok, w.withHost { w.host with dataQueue := none })
  | none => (.ok, w)

end BmCore.Dfu
