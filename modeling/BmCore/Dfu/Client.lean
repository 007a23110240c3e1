import BmCore.Common.Crc
import BmCore.Dfu.Services

/-!
# The DFU client

`dfu_client.c`: the node that receives an image. Chunks are collected in a page buffer and
written to flash page by page; the state functions are rows of the state table of the core.
-/
namespace BmCore.Dfu
open Library

/-- `bm_dfu_client_abort` -/
def bmDfuClientAbort (env : Env) (err : BmDfuErr) (w : World) : World :=
  (bcmpTx env (resultFrame bcmpDFUAbortMessage w.client.selfNodeId w.client.hostNodeId 0 err) w).2

/-- `bm_dfu_client_send_reboot_request` -/
def bmDfuClientSendRebootRequest (env : Env) (w : World) : World :=
  (bcmpTx env (frameHeader bcmpDFURebootReqMessage w.client.selfNodeId w.client.hostNodeId) w).2

/-- `bm_dfu_client_send_boot_complete` -/
def bmDfuClientSendBootComplete (env : Env) (host : UInt64) (w : World) : World :=
  (bcmpTx env (frameHeader bcmpDFUBootCompleteMessage w.client.selfNodeId host) w).2

/-- `bm_dfu_client_confirm_is_enabled`: the configuration value, 1 when there is none. -/
def bmDfuClientConfirmIsEnabled (env : Env) (w : World) : Bool :=
  (env.dfuConfirm w.log.length).getD 1 == 1

/-- `bm_dfu_client_confirm_enable` -/
def bmDfuClientConfirmEnable (en : Bool) (w : World) : World := w.emit (.confirmEnable en)

/-- `bm_dfu_client_transition_to_error` -/
def bmDfuClientTransitionToError (env : Env) (err : BmDfuErr) (w : World) : World :=
  let (_, w) := bmTimerStop env .chunk w
  let w := bmDfuSetError err w
  bmDfuSetPendingStateChange .error w

/-- `bm_dfu_client_fail_update_and_reboot` -/
def bmDfuClientFailUpdateAndReboot (w : World) : World :=
  (w.withRebootInfo .zero).emit .failUpdateAndReset

/-- `bm_dfu_client_host_node_valid` -/
def bmDfuClientHostNodeValid (hostNodeId : UInt64) (w : World) : Bool :=
  w.client.hostNodeId == hostNodeId

/-! ## The page buffer -/

/-- `memcpy` of `bs` behind the bytes already in the page buffer. -/
def DfuClientCtx.fillPage (c : DfuClientCtx) (bs : List UInt8) : DfuClientCtx :=
  { c with
    imgPageBuf := blit c.imgPageBuf c.imgPageByteCounter bs
    imgPageByteCounter := (c.imgPageByteCounter + bs.length) % 2 ^ 16 }

/-- Write a full page to flash and advance the flash offset. -/
def bmDfuWritePage (env : Env) (w : World) : BmErr × World :=
  let w := w.withClient { w.client with imgPageByteCounter := 0 }
  let (retval, w) := bmDfuClientFlashAreaWrite env w.client.imgFlashOffset
    (peek w.client.imgPageBuf 0 bmImgPageLength) w
  if retval ≠ .ok then (retval, w)
  else (retval, w.withClient { w.client with
    imgFlashOffset := (w.client.imgFlashOffset + bmImgPageLength) % 2 ^ 32 })

/-- `bm_dfu_process_payload`: true when it returns non-zero. -/
def bmDfuProcessPayload (env : Env) (buf : List UInt8) (w : World) : Bool × World :=
  if buf.length = 0 then (true, w)
  else if bmImgPageLength > buf.length + w.client.imgPageByteCounter then
    let w := w.withClient (w.client.fillPage buf)
    if w.client.imgPageByteCounter = bmImgPageLength then
      let (retval, w) := bmDfuWritePage env w
      (retval != .ok, w)
    else (false, w)
  else
    let remainingPageLength := bmImgPageLength - w.client.imgPageByteCounter
    let w := w.withClient (w.client.fillPage (buf.take remainingPageLength))
    let (retval, w) := if w.client.imgPageByteCounter = bmImgPageLength then bmDfuWritePage env w
      else (.ok, w)
    if retval ≠ .ok then (true, w)
    else (false, w.withClient (w.client.fillPage (buf.drop remainingPageLength)))

/-- Write the bytes of a partial page to flash and advance the flash offset. -/
def bmDfuWriteDirty (env : Env) (w : World) : BmErr × World :=
  if w.client.imgPageByteCounter ≠ 0 then
    let (retval, w) := bmDfuClientFlashAreaWrite env w.client.imgFlashOffset
      (peek w.client.imgPageBuf 0 w.client.imgPageByteCounter) w
    if retval ≠ .ok then (retval, w)
    else (retval, w.withClient { w.client with
      imgFlashOffset := (w.client.imgFlashOffset + w.client.imgPageByteCounter) % 2 ^ 32 })
  else (.ok, w)

/-- `bm_dfu_process_end`: true when it returns non-zero. The area is closed in any case. -/
def bmDfuProcessEnd (env : Env) (w : World) : Bool × World :=
  let (retval, w) := bmDfuWriteDirty env w
  (retval != .ok, bmDfuClientFlashAreaClose w)

/-! ## Idle: a Start frame arrives -/

/-- The chunk count of a Start frame, as the `uint16_t` field holds it. -/
def numChunksOf (info : BmDfuImgInfo) : Nat :=
  let imageSize := info.imageSize.toNat
  let chunkSize := info.chunkSize.toNat
  (if imageSize % chunkSize ≠ 0 then imageSize / chunkSize + 1 else imageSize / chunkSize) % 2 ^ 16

/-- The Start frame is for another version than the running one, or forces the update. -/
def wantsUpdate (env : Env) (info : BmDfuImgInfo) : Bool :=
  info.gitSHA != env.gitSha || info.filterKey == bmDfuImgInfoForceUpdate

/-- The division of the image size by the chunk size. By zero it is undefined in the source: the
record of it is the only trace the model keeps, and the quotient is zero as on the target cores. -/
def recordDivision (info : BmDfuImgInfo) (w : World) : World :=
  if info.chunkSize = 0 then w.emit .divisionByZero else w

/-- The secondary slot is open: erase it, acknowledge, and remember the update over the reset. -/
def clientPrepareSlot (env : Env) (info : BmDfuImgInfo) (w : World) : World :=
  if env.flashAreaSize > info.imageSize then
    let (erased, w) := bmDfuClientFlashAreaErase env 0 env.flashAreaSize.toNat w
    if erased ≠ .ok then
      let w := bmDfuSendAck env w.client.hostNodeId 0 .flashAccess w
      bmDfuClientTransitionToError env .flashAccess w
    else
      let w := bmDfuSendAck env w.client.hostNodeId 1 .none w
      let w := w.withRebootInfo
        { magic := dfuRebootMagic
          major := info.majorVer
          minor := info.minorVer
          hostNodeId := w.client.hostNodeId
          gitSHA := info.gitSHA }
      bmDfuSetPendingStateChange .clientReceiving w
  else bmDfuSendAck env w.client.hostNodeId 0 .tooLarge w

/-- The chunk size is acceptable: take over the parameters and open the secondary slot. -/
def clientTakeStart (env : Env) (info : BmDfuImgInfo) (w : World) : World :=
  let w := recordDivision info w
  let w := w.withClient { w.client with
    imageSize := info.imageSize.toNat
    numChunks := numChunksOf info
    crc16 := info.crc16 }
  let (opened, w) := bmDfuClientFlashAreaOpen env w
  if opened ≠ .ok then
    let w := bmDfuSendAck env w.client.hostNodeId 0 .flashAccess w
    bmDfuClientTransitionToError env .flashAccess w
  else clientPrepareSlot env info w

/-- `bm_dfu_client_process_update_request` -/
def bmDfuClientProcessUpdateRequest (env : Env) (w : World) : World :=
  match (bmDfuGetCurrentEvent w).buf with
  | none => w
  | some buf =>
    let info := imgInfo env.beyond buf.bytes
    let w := w.withClient { w.client with hostNodeId := srcNodeId env.beyond buf.bytes }
    if wantsUpdate env info then
      if info.chunkSize.toNat > bmDfuMaxChunkSize then
        let w := bmDfuClientAbort env .aborted w
        bmDfuClientTransitionToError env .chunkSize w
      else clientTakeStart env info w
    else bmDfuSendAck env w.client.hostNodeId 0 .sameVer w

/-! ## State functions -/

/-- Counters of an image that starts from its first byte. -/
def DfuClientCtx.restart (c : DfuClientCtx) : DfuClientCtx :=
  { c with
    currentChunk := 0
    chunkRetryNum := 0
    imgPageByteCounter := 0
    imgFlashOffset := 0
    runningCrc16 := 0 }

def sClientReceivingEntry (env : Env) (w : World) : BmErr × World :=
  let w := w.withClient w.client.restart
  let w := bmDfuReqNextChunk env w.client.hostNodeId w.client.currentChunk w
  bmTimerStart env .chunk w

/-- `timer_err_check_and_return` of the client: a timer call that fails aborts the update. -/
def clientTimerErrCheck (env : Env) (call : BmErr × World) : BmErr × World :=
  if call.1 ≠ .ok then (call.1, bmDfuClientTransitionToError env .aborted call.2) else call

/-- The tail of the chunk branch: ask for the next chunk, or finish the image. -/
def clientNextChunk (env : Env) (w : World) : BmErr × World :=
  let w := w.withClient { w.client with
    currentChunk := (w.client.currentChunk + 1) % 2 ^ 16
    chunkRetryNum := 0 }
  if w.client.currentChunk < w.client.numChunks then
    let w := bmDfuReqNextChunk env w.client.hostNodeId w.client.currentChunk w
    clientTimerErrCheck env (bmTimerStart env .chunk w)
  else
    let (failed, w) := bmDfuProcessEnd env w
    if failed then (.ok, bmDfuClientTransitionToError env .bmFrame w)
    else (.ok, bmDfuSetPendingStateChange .clientValidating w)

/-- The chunk branch once the chunk timer is stopped: checksum, page buffer, next request. A
payload that cannot be processed asks for the error state and goes on. -/
def clientAcceptChunk (env : Env) (payload : List UInt8) (w : World) : BmErr × World :=
  let w := w.withClient { w.client with
    chunkLength := payload.length
    runningCrc16 := crc16Ccitt w.client.runningCrc16 payload }
  let (failed, w) := bmDfuProcessPayload env payload w
  let w := if failed then bmDfuClientTransitionToError env .bmFrame w else w
  clientNextChunk env w

/-- A repeated Start: acknowledge it and take the image from the beginning. -/
def clientResync (env : Env) (w : World) : BmErr × World :=
  let w := bmDfuSendAck env w.client.hostNodeId 1 .none w
  let w := w.withClient w.client.restart
  let w := bmDfuReqNextChunk env w.client.hostNodeId w.client.currentChunk w
  clientTimerErrCheck env (bmTimerStart env .chunk w)

/-- A chunk timeout: repeat the request until the retries are used up. -/
def clientChunkTimeout (env : Env) (w : World) : BmErr × World :=
  let w := w.withClient { w.client with
    chunkRetryNum := (w.client.chunkRetryNum + 1) % 2 ^ 8 }
  if w.client.chunkRetryNum ≥ bmDfuMaxChunkRetries then
    let w := bmDfuClientAbort env .aborted w
    (.einval, bmDfuClientTransitionToError env .timeout w)
  else
    let w := bmDfuReqNextChunk env w.client.hostNodeId w.client.currentChunk w
    clientTimerErrCheck env (bmTimerStart env .chunk w)

def sClientReceivingRun (env : Env) (w : World) : BmErr × World :=
  match (bmDfuGetCurrentEvent w).type, (bmDfuGetCurrentEvent w).buf with
  | .imageChunk, some buf =>
    let len := payloadLength env.beyond buf.bytes
    if len > bmDfuMaxChunkSize then (.einval, w)
    else
      let (err, w) := bmTimerStop env .chunk w
      if err ≠ .ok then (err, bmDfuClientTransitionToError env .aborted w)
      else clientAcceptChunk env (payloadBuf env.beyond buf.bytes len) w
  | .chunkTimeout, _ => clientChunkTimeout env w
  | .receivedUpdateRequest, _ =>
    let (err, w) := bmTimerStop env .chunk w
    if err ≠ .ok then (err, bmDfuClientTransitionToError env .aborted w)
    else clientResync env w
  | .heartbeat, _ => clientTimerErrCheck env (bmTimerStart env .chunk w)
  | _, _ => (.einval, w)

def sClientValidatingEntry (env : Env) (w : World) : BmErr × World :=
  if w.client.imageSize ≠ w.client.imgFlashOffset then
    let w := bmDfuUpdateEnd env w.client.hostNodeId 0 .mismatchLen w
    (.ok, bmDfuClientTransitionToError env .mismatchLen w)
  else if w.client.crc16 = w.client.runningCrc16 then
    (.ok, bmDfuSetPendingStateChange .clientRebootReq w)
  else
    let w := bmDfuUpdateEnd env w.client.hostNodeId 0 .badCrc w
    (.ok, bmDfuClientTransitionToError env .badCrc w)

def sClientValidatingRun (w : World) : BmErr × World := (.ok, w)

def sClientActivatingEntry (w : World) : BmErr × World := (.ok, w.emit .setPendingAndReset)

def sClientActivatingRun (w : World) : BmErr × World := (.ok, w)

def sClientRebootReqEntry (env : Env) (w : World) : BmErr × World :=
  let w := w.withClient { w.client with chunkRetryNum := 0 }
  let w := bmDfuClientSendRebootRequest env w
  bmTimerStart env .chunk w

def sClientRebootReqRun (env : Env) (w : World) : BmErr × World :=
  match (bmDfuGetCurrentEvent w).type, (bmDfuGetCurrentEvent w).buf with
  | .reboot, some _ =>
    let (err, w) := bmTimerStop env .chunk w
    (err, bmDfuSetPendingStateChange .clientActivating w)
  | .reboot, none => (.enodata, w)
  | .chunkTimeout, _ =>
    let w := w.withClient { w.client with
      chunkRetryNum := (w.client.chunkRetryNum + 1) % 2 ^ 8 }
    if w.client.chunkRetryNum ≥ bmDfuMaxChunkRetries then
      let w := bmDfuClientAbort env .aborted w
      (.ok, bmDfuClientTransitionToError env .timeout w)
    else
      let w := bmDfuClientSendRebootRequest env w
      bmTimerStart env .chunk w
  | _, _ => (.ok, w)

def sClientUpdateDoneEntry (env : Env) (w : World) : BmErr × World :=
  let w := w.withClient { w.client with
    hostNodeId := w.rebootInfo.hostNodeId
    chunkRetryNum := 0 }
  if env.gitSha = w.rebootInfo.gitSHA then
    if ¬ bmDfuClientConfirmIsEnabled env w then
      let w := w.withRebootInfo .zero
      let w := w.emit .setConfirmed
      (.ok, bmDfuClientConfirmEnable true w)
    else
      let w := bmDfuClientSendBootComplete env w.rebootInfo.hostNodeId w
      bmTimerStart env .chunk w
  else
    let w := bmDfuUpdateEnd env w.rebootInfo.hostNodeId 0 .wrongVer w
    (.ok, bmDfuClientFailUpdateAndReboot w)

def sClientUpdateDoneRun (env : Env) (w : World) : BmErr × World :=
  match (bmDfuGetCurrentEvent w).type, (bmDfuGetCurrentEvent w).buf with
  | .updateEnd, some _ =>
    let (err, w) := bmTimerStop env .chunk w
    let w := w.emit .setConfirmed
    let w := bmDfuUpdateEnd env w.rebootInfo.hostNodeId 1 .none w
    (err, bmDfuSetPendingStateChange .idle w)
  | .updateEnd, none => (.enodata, w)
  | .chunkTimeout, _ =>
    let w := w.withClient { w.client with
      chunkRetryNum := (w.client.chunkRetryNum + 1) % 2 ^ 8 }
    if w.client.chunkRetryNum ≥ bmDfuMaxChunkRetries then
      let w := bmDfuClientAbort env .confirmationAbort w
      (.ok, bmDfuClientFailUpdateAndReboot w)
    else
      let w := bmDfuClientSendBootComplete env w.rebootInfo.hostNodeId w
      bmTimerStart env .chunk w
  | _, _ => (.ok, w)

end BmCore.Dfu
