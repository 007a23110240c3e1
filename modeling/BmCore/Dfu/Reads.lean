import BmCore.Dfu.Node
import BmCore.Library.Accesses

/-!
# Reads of a received frame

The functions of the DFU subsystem that look into a received frame once more, read by read: the
intake on the receive path, and the state functions that cast the buffer of an event to the
structure they expect. None of them looks at the length. A frame that is as long as its reader takes
it to be is read within its bounds, and then what lies behind it plays no part. -/
namespace BmCore.Dfu
open Library

/-! ## Readers -/

namespace Traced
open Access

def readU16 (off : Nat) : Access UInt8 UInt16 := do
  let bytes ← readRange off 2
  return .ofNat (leNat bytes)

def readU32 (off : Nat) : Access UInt8 UInt32 := do
  let bytes ← readRange off 4
  return .ofNat (leNat bytes)

def readU64 (off : Nat) : Access UInt8 UInt64 := do
  let bytes ← readRange off 8
  return .ofNat (leNat bytes)

/-- `addresses.src_node_id` -/
def srcNodeId : Access UInt8 UInt64 := readU64 1
/-- `addresses.dst_node_id` -/
def dstNodeId : Access UInt8 UInt64 := readU64 9

/-- `BmDfuEventImgInfo.img_info`. Not every reader of a Start frame looks at all its fields, but all
of them look at the last one. -/
def imgInfo : Access UInt8 BmDfuImgInfo := do
  let imageSize ← readU32 17
  let chunkSize ← readU16 21
  let crc16 ← readU16 23
  let majorVer ← readAt 25
  let minorVer ← readAt 26
  let filterKey ← readU32 27
  let gitSHA ← readU32 31
  return ⟨imageSize, chunkSize, crc16, majorVer, minorVer, filterKey, gitSHA⟩

/-- `BmDfuEventChunkRequest.seq_num` -/
def seqNum : Access UInt8 Nat := do
  let num ← readU16 17
  return num.toNat

/-- `BmDfuEventImageChunk.payload_length` -/
def payloadLength : Access UInt8 Nat := do
  let len ← readU16 17
  return len.toNat

/-- The first `len` bytes at `BmDfuEventImageChunk.payload_buf` -/
def payloadBuf (len : Nat) : Access UInt8 (List UInt8) := readRange 19 len

/-- `BmDfuEventResult.success` -/
def resultSuccess : Access UInt8 UInt8 := readAt 17

/-- `BmDfuEventResult.err_code` -/
def resultErrCode : Access UInt8 BmDfuErr := do
  let code ← readAt 18
  return ⟨code⟩

/-! ## The receive path -/

/-- The source check of `bm_dfu_process_message`. -/
def validPacket (w : World) : Access UInt8 Bool :=
  match w.core.currentState with
  | .init | .idle | .error => return true
  | .clientReceiving | .clientValidating | .clientRebootReq | .clientRebootDone
  | .clientActivating => do
    let src ← srcNodeId
    return bmDfuClientHostNodeValid src w
  | .hostReqUpdate | .hostUpdate => do
    let src ← srcNodeId
    return bmDfuHostClientNodeValid src w

/-- `bm_dfu_process_message` -/
def bmDfuProcessMessage (buf : BmDfuBuf) (w : World) : Access UInt8 World := do
  let dst ← dstNodeId
  if w.core.selfNodeId ≠ dst then return bmFree buf.ptr w
  else
    let valid ← validPacket w
    if ¬ valid then return bmFree buf.ptr w
    else
      let type ← readAt 0
      match frameEvent type with
      | some type =>
        let (err, w) := bmQueueSend { type := type, buf := some buf } w
        return if err ≠ .ok then bmFree buf.ptr w else w
      | none => return w

/-- `dfu_copy_and_process_message` of a payload of `size` bytes. The copy has the bytes of the
payload. -/
def dfuCopyAndProcessMessage (env : Env) (size : Nat) (w : World) : Access UInt8 World := do
  let dst ← dstNodeId
  if dst = w.core.selfNodeId then
    let (ok, w) := bmMalloc env w
    if ok then
      let copy ← readRange 0 size
      bmDfuProcessMessage { ptr := w.log.length, bytes := copy } w
    else return w
  else return w

/-! ## The state functions -/

/-- `bm_dfu_client_process_update_request` -/
def bmDfuClientProcessUpdateRequest (env : Env) (w : World) : Access UInt8 World := do
  let info ← imgInfo
  let src ← srcNodeId
  let w := w.withClient { w.client with hostNodeId := src }
  return if wantsUpdate env info then
    if info.chunkSize.toNat > bmDfuMaxChunkSize then
      bmDfuClientTransitionToError env .chunkSize (bmDfuClientAbort env .aborted w)
    else clientTakeStart env info w
  else bmDfuSendAck env w.client.hostNodeId 0 .sameVer w

def sIdleRun (env : Env) (buf : BmDfuBuf) (w : World) : Access UInt8 (BmErr × World) :=
  match w.core.currentEvent.type with
  | .receivedUpdateRequest => do
    let w ← bmDfuClientProcessUpdateRequest env w
    return (.ok, w)
  | .beginHost => do
    let dst ← dstNodeId
    let w := w.withCore { w.core with updateFinishCallback := buf.finishCb, clientNodeId := dst }
    let w := bmDfuHostSetParams w.core.updateFinishCallback buf.timeoutMs w
    return (.ok, bmDfuSetPendingStateChange .hostReqUpdate w)
  | _ => return (.ok, w)

def sClientReceivingRun (env : Env) (w : World) : Access UInt8 (BmErr × World) :=
  match w.core.currentEvent.type with
  | .imageChunk => do
    let len ← payloadLength
    if len > bmDfuMaxChunkSize then return (.einval, w)
    else
      let (err, w) := bmTimerStop env .chunk w
      if err ≠ .ok then return (err, bmDfuClientTransitionToError env .aborted w)
      else
        let payload ← payloadBuf len
        return clientAcceptChunk env payload w
  | .chunkTimeout => return clientChunkTimeout env w
  | .receivedUpdateRequest =>
    let (err, w) := bmTimerStop env .chunk w
    return if err ≠ .ok then (err, bmDfuClientTransitionToError env .aborted w) else
    clientResync env w
  | .heartbeat => return clientTimerErrCheck env (bmTimerStart env .chunk w)
  | _ => return (.einval, w)

def sHostReqUpdateEntry (env : Env) (w : World) : Access UInt8 (BmErr × World) := do
  let info ← imgInfo
  let dst ← dstNodeId
  let w := w.withHost { w.host with
    imgInfo := info
    bytesRemaining := info.imageSize.toNat
    clientNodeId := dst
    ackRetryNum := 0 }
  let w := bmDfuHostReqUpdate env w
  let w :=
    if ¬ bmDfuInternal w then
      let ok := env.streamBufferCreate w.log.length
      let w := w.emit (.streamBufferCreate ok)
      w.withHost { w.host with dataQueue := if ok then some [] else none }
    else w
  return bmTimerStart env .ack w

def sHostReqUpdateRun (env : Env) (w : World) : Access UInt8 (BmErr × World) :=
  match w.core.currentEvent.type with
  | .ackReceived =>
    let (err, w) := bmTimerStop env .ack w
    if err ≠ .ok then return (err, bmDfuHostTransitionToError env .aborted w)
    else do
      let success ← resultSuccess
      if success ≠ 0 then return (.ok, bmDfuSetPendingStateChange .hostUpdate w)
      else
        let err ← resultErrCode
        return (.ok, bmDfuHostTransitionToError env err w)
  | .ackTimeout =>
    let w := w.withHost { w.host with ackRetryNum := (w.host.ackRetryNum + 1) % 2 ^ 8 }
    return if w.host.ackRetryNum ≥ bmDfuMaxAckRetries then
    (.ok, bmDfuHostTransitionToError env .timeout w)
    else hostTimerErrCheck env (bmTimerStart env .ack (bmDfuHostReqUpdate env w))
  | .abort => do
    let err ← resultErrCode
    return (.ok, bmDfuHostTransitionToError env err w)
  | _ => return (.ok, w)

/-- The completion callback of the host context: without one the error is not looked at. -/
def hostUpdateComplete (success : Bool) (w : World) : Access UInt8 World :=
  match w.host.updateCompleteCallback with
  | some cb => do
    let err ← resultErrCode
    return w.emit (.finishCallback cb success err w.host.clientNodeId)
  | none => return w

def sHostUpdateRun (env : Env) (w : World) : Access UInt8 (BmErr × World) :=
  match w.core.currentEvent.type with
  | .chunkRequest =>
    let (err, w) := bmTimerStart env .heartbeat w
    if err ≠ .ok then return (err, bmDfuHostTransitionToError env .aborted w)
    else do
      -- the number of the chunk is printed
      let _ ← seqNum
      let (_, w) := bmDfuHostSendChunk env [] w
      return hostTimerErrCheck env (bmTimerStop env .heartbeat w)
  | .rebootRequest => return (.ok, bmDfuHostSendReboot env w)
  | .bootComplete => return (.ok, bmDfuUpdateEnd env w.host.clientNodeId 1 .none w)
  | .updateEnd =>
    let (err, w) := bmTimerStop env .update w
    if err ≠ .ok then return (err, bmDfuHostTransitionToError env .aborted w)
    else do
      let success ← resultSuccess
      let w ← hostUpdateComplete (success != 0) w
      return (.ok, bmDfuSetPendingStateChange .idle w)
  | .abort => do
    let err ← resultErrCode
    return (.ok, bmDfuHostTransitionToError env err w)
  | _ => return (.ok, w)

/-- The run function of the current state on an event with a buffer. The other states do not look
into it. -/
def run (env : Env) (buf : BmDfuBuf) (w : World) : Access UInt8 (BmErr × World) :=
  match w.core.currentState with
  | .idle => sIdleRun env buf w
  | .clientReceiving => sClientReceivingRun env w
  | .hostReqUpdate => sHostReqUpdateRun env w
  | .hostUpdate => sHostUpdateRun env w
  | .init => return sInitRun w
  | .error => return sErrorRun w
  | .clientValidating => return sClientValidatingRun w
  | .clientRebootReq => return sClientRebootReqRun env w
  | .clientRebootDone => return sClientUpdateDoneRun env w
  | .clientActivating => return sClientActivatingRun w

/-! ## They are the functions of the subsystem -/

section Erasure
variable {beyond : Nat → UInt8} {b : List UInt8} {off : Nat}

theorem run_readRange_window (len : Nat) :
    (readRange off len).run beyond b = (window beyond b off len, b) := run_readRange off len b

@[simp] theorem run_readU16 : (readU16 off).run beyond b = (u16At beyond b off, b) := by
  simp only [readU16, run_bind, run_readRange_window, run_pure, u16At]

@[simp] theorem run_readU32 : (readU32 off).run beyond b = (u32At beyond b off, b) := by
  simp only [readU32, run_bind, run_readRange_window, run_pure, u32At]

@[simp] theorem run_readU64 : (readU64 off).run beyond b = (u64At beyond b off, b) := by
  simp only [readU64, run_bind, run_readRange_window, run_pure, u64At]

theorem run_readByte : (readAt off).run beyond b = (byteAt beyond b off, b) := rfl

@[simp] theorem run_srcNodeId : srcNodeId.run beyond b = (Dfu.srcNodeId beyond b, b) := run_readU64

@[simp] theorem run_dstNodeId : dstNodeId.run beyond b = (Dfu.dstNodeId beyond b, b) := run_readU64

@[simp] theorem run_imgInfo : imgInfo.run beyond b = (Dfu.imgInfo beyond b, b) := by
  simp only [imgInfo, run_bind, run_readU16, run_readU32, run_readByte, run_pure, Dfu.imgInfo]

@[simp] theorem run_seqNum : seqNum.run beyond b = (Dfu.seqNum beyond b, b) := by
  simp only [seqNum, run_bind, run_readU16, run_pure, Dfu.seqNum]

@[simp] theorem run_payloadLength : payloadLength.run beyond b =
    (Dfu.payloadLength beyond b, b) := by
  simp only [payloadLength, run_bind, run_readU16, run_pure, Dfu.payloadLength]

@[simp] theorem run_payloadBuf (len : Nat) :
    (payloadBuf len).run beyond b = (Dfu.payloadBuf beyond b len, b) := run_readRange_window len

@[simp] theorem run_resultSuccess : resultSuccess.run beyond b =
    (Dfu.resultSuccess beyond b, b) := by
  simp only [resultSuccess, run_readByte, Dfu.resultSuccess]

@[simp] theorem run_resultErrCode : resultErrCode.run beyond b =
    (Dfu.resultErrCode beyond b, b) := by
  simp only [resultErrCode, run_bind, run_readByte, run_pure, Dfu.resultErrCode]

theorem run_validPacket (w : World) :
    (validPacket w).run beyond b = (Dfu.validPacket (Dfu.srcNodeId beyond b) w, b) := by
  unfold validPacket Dfu.validPacket
  cases w.core.currentState <;> simp

variable (env : Env) (w : World)

theorem run_processMessage (buf : BmDfuBuf) :
    (bmDfuProcessMessage buf w).run env.beyond buf.bytes =
    (Dfu.bmDfuProcessMessage env buf w, buf.bytes) := by
  simp only [bmDfuProcessMessage, run_bind, run_dstNodeId, Dfu.bmDfuProcessMessage]
  split
  · rfl
  · simp only [run_bind, run_validPacket]
    split
    · rfl
    · simp only [run_bind, run_readByte, frameType]
      cases frameEvent (byteAt env.beyond buf.bytes 0) <;> rfl

/-- The intake. -/
theorem run_copyAndProcessMessage (payload : List UInt8) :
    (dfuCopyAndProcessMessage env payload.length w).run env.beyond payload =
      (Dfu.dfuCopyAndProcessMessage env payload w, payload) := by
  simp only [dfuCopyAndProcessMessage, run_bind, run_dstNodeId, Dfu.dfuCopyAndProcessMessage]
  split
  · split
    · have hcopy : window env.beyond payload 0 payload.length = payload := by
        rw [window_eq_slice env.beyond payload (by simp), List.drop_zero, List.take_length]
      simp only [run_bind, run_readRange_window, hcopy]
      exact run_processMessage env _ { ptr := (bmMalloc env w).2.log.length, bytes := payload }
    · rfl
  · rfl

variable {buf : BmDfuBuf} (hbuf : w.core.currentEvent.buf = some buf)
include hbuf

theorem run_idleRun :
    (sIdleRun env buf w).run env.beyond buf.bytes = (Dfu.sIdleRun env w, buf.bytes) := by
  unfold sIdleRun Dfu.sIdleRun
  rw [hbuf]
  cases w.core.currentEvent.type with
  | receivedUpdateRequest =>
    simp only [bmDfuClientProcessUpdateRequest, run_bind, run_imgInfo, run_srcNodeId, run_pure,
      Dfu.bmDfuClientProcessUpdateRequest, bmDfuGetCurrentEvent, hbuf]
  | beginHost => simp only [run_bind, run_dstNodeId, run_pure]
  | _ => rfl

theorem run_receivingRun :
    (sClientReceivingRun env w).run env.beyond buf.bytes =
    (Dfu.sClientReceivingRun env w, buf.bytes) := by
  unfold sClientReceivingRun Dfu.sClientReceivingRun
  simp only [bmDfuGetCurrentEvent, hbuf]
  cases w.core.currentEvent.type with
  | imageChunk =>
    simp only [run_bind, run_payloadLength]
    split_ifs
    · rfl
    · rfl
    · simp only [run_bind, run_payloadBuf, run_pure]
  | _ => rfl

theorem run_hostReqUpdateEntry :
    (sHostReqUpdateEntry env w).run env.beyond buf.bytes =
    (Dfu.sHostReqUpdateEntry env w, buf.bytes) := by
  simp only [sHostReqUpdateEntry, run_bind, run_imgInfo, run_dstNodeId, run_pure,
    Dfu.sHostReqUpdateEntry,
    bmDfuGetCurrentEvent, hbuf]

theorem run_hostReqUpdateRun :
    (sHostReqUpdateRun env w).run env.beyond buf.bytes =
    (Dfu.sHostReqUpdateRun env w, buf.bytes) := by
  unfold sHostReqUpdateRun Dfu.sHostReqUpdateRun
  simp only [bmDfuGetCurrentEvent, hbuf]
  cases w.core.currentEvent.type with
  | ackReceived =>
    dsimp only
    split
    · rfl
    · simp only [run_bind, run_resultSuccess]
      split_ifs
      · rfl
      · simp only [run_bind, run_resultErrCode, run_pure]
  | ackTimeout =>
    dsimp only
    split <;> rfl
  | abort => simp only [run_bind, run_resultErrCode, run_pure, abortErr, hbuf]
  | _ => rfl

theorem run_hostUpdateRun :
    (sHostUpdateRun env w).run env.beyond buf.bytes = (Dfu.sHostUpdateRun env w, buf.bytes) := by
  unfold sHostUpdateRun Dfu.sHostUpdateRun
  simp only [bmDfuGetCurrentEvent, hbuf]
  cases w.core.currentEvent.type with
  | chunkRequest =>
    dsimp only
    split
    · rfl
    · simp only [run_bind, run_seqNum, run_pure]
      rfl
  | updateEnd =>
    dsimp only
    split
    · rfl
    · simp only [run_bind, run_resultSuccess, hostUpdateComplete, Dfu.hostUpdateComplete]
      cases (bmTimerStop env .update w).2.host.updateCompleteCallback <;> rfl
  | abort => simp only [run_bind, run_resultErrCode, run_pure, abortErr, hbuf]
  | _ => rfl

/-- The run function of every state. -/
theorem run_run : (run env buf w).run env.beyond buf.bytes =
    ((dfuStates env w.core.currentState).run w, buf.bytes) := by
  unfold run
  cases w.core.currentState with
  | idle => exact run_idleRun env w hbuf
  | clientReceiving => exact run_receivingRun env w hbuf
  | hostReqUpdate => exact run_hostReqUpdateRun env w hbuf
  | hostUpdate => exact run_hostUpdateRun env w hbuf
  | _ => rfl

end Erasure

end Traced

/-! ## What is read -/

/-- The bytes that a frame must have for the reads of the state that takes its event. -/
def frameNeeds (env : Env) (w : World) (type : BmDfuEvtType) (frame : List UInt8) : Nat :=
  match w.core.currentState, type with
  | .idle, .receivedUpdateRequest => 35
  | .idle, .beginHost => 17
  | .clientReceiving, .imageChunk =>
    if payloadLength env.beyond frame ≤ bmDfuMaxChunkSize ∧ env.timerStop w.log.length = .ok then
      19 + payloadLength env.beyond frame
    else 19
  | .hostReqUpdate, .ackReceived =>
    if env.timerStop w.log.length ≠ .ok then 0 else if resultSuccess env.beyond frame ≠
      0 then 18 else 19
  | .hostReqUpdate, .abort => 19
  | .hostUpdate, .chunkRequest => if env.timerStart w.log.length ≠ .ok then 0 else 19
  | .hostUpdate, .updateEnd =>
    if env.timerStop w.log.length ≠ .ok then 0 else if w.host.updateCompleteCallback.isSome then
      19 else 18
  | .hostUpdate, .abort => 19
  | _, _ => 0

namespace Traced
open Access

section Bounds
variable {beyond : Nat → UInt8} {b : List UInt8} {off : Nat}

@[simp] theorem within_readU16 : (readU16 off).Within beyond b ↔ off + 2 ≤ b.length := by
  simp [readU16, within_bind, within_readRange_iff, within_pure]

@[simp] theorem within_readU32 : (readU32 off).Within beyond b ↔ off + 4 ≤ b.length := by
  simp [readU32, within_bind, within_readRange_iff, within_pure]

@[simp] theorem within_readU64 : (readU64 off).Within beyond b ↔ off + 8 ≤ b.length := by
  simp [readU64, within_bind, within_readRange_iff, within_pure]

@[simp] theorem within_srcNodeId : srcNodeId.Within beyond b ↔ 9 ≤ b.length := within_readU64

@[simp] theorem within_dstNodeId : dstNodeId.Within beyond b ↔ 17 ≤ b.length := within_readU64

@[simp] theorem within_imgInfo : imgInfo.Within beyond b ↔ 35 ≤ b.length := by
  simp only [imgInfo, within_bind, run_readU16, run_readU32, run_readAt, within_readU16,
    within_readU32,
    within_readAt, within_pure, and_true]
  omega

@[simp] theorem within_seqNum : seqNum.Within beyond b ↔ 19 ≤ b.length := by
  simp [seqNum, within_bind, within_pure]

@[simp] theorem within_payloadLength : payloadLength.Within beyond b ↔ 19 ≤ b.length := by
  simp [payloadLength, within_bind, within_pure]

@[simp] theorem within_payloadBuf (len : Nat) :
    (payloadBuf len).Within beyond b ↔ len = 0 ∨ 19 + len ≤ b.length := within_readRange_iff

@[simp] theorem within_resultSuccess : resultSuccess.Within beyond b ↔ 18 ≤ b.length :=
  within_readAt

@[simp] theorem within_resultErrCode : resultErrCode.Within beyond b ↔ 19 ≤ b.length := by
  simp only [resultErrCode, within_bind, within_readAt, within_pure, and_true]
  exact Nat.lt_iff_add_one_le

theorem within_validPacket {w : World} (h : 17 ≤ b.length) : (validPacket w).Within beyond b := by
  have hsrc : srcNodeId.Within beyond b := within_srcNodeId.mpr (by omega)
  unfold validPacket
  cases w.core.currentState with
  | init | idle | error => exact within_pure true
  | _ => exact within_bind.mpr ⟨hsrc, within_pure _⟩

theorem within_processMessage {buf : BmDfuBuf} {w : World} (h : 17 ≤ b.length) :
    (bmDfuProcessMessage buf w).Within beyond b := by
  have htype : (readAt 0).Within beyond b := within_readAt.mpr (by omega)
  refine within_bind.mpr ⟨within_dstNodeId.mpr h, ?_⟩
  rw [run_dstNodeId]
  split
  · exact within_pure _
  · refine within_bind.mpr ⟨within_validPacket h, ?_⟩
    rw [run_validPacket]
    split
    · exact within_pure _
    · refine within_bind.mpr ⟨htype, ?_⟩
      dsimp only
      split <;> exact within_pure _

/-- The intake looks at the addresses of whatever arrives. -/
theorem within_copyAndProcessMessage {env : Env} {payload : List UInt8} {w : World} :
    (dfuCopyAndProcessMessage env payload.length w).Within beyond payload ↔
    17 ≤ payload.length := by
  refine ⟨fun h => within_dstNodeId.mp (within_bind.mp h).1, fun h => ?_⟩
  refine within_bind.mpr ⟨within_dstNodeId.mpr h, ?_⟩
  rw [run_dstNodeId]
  split
  · dsimp only
    split
    · refine within_bind.mpr ⟨within_readRange (by omega), ?_⟩
      rw [run_readRange]
      exact within_processMessage h
    · exact within_pure _
  · exact within_pure _

variable {env : Env} {w : World} {buf : BmDfuBuf}

attribute [local simp] frameNeeds

theorem within_idleRun (hs : w.core.currentState = .idle) :
    (sIdleRun env buf w).Within env.beyond b ↔
    frameNeeds env w w.core.currentEvent.type b ≤ b.length := by
  unfold sIdleRun
  cases w.core.currentEvent.type with
  | receivedUpdateRequest =>
    simp only [frameNeeds, hs, bmDfuClientProcessUpdateRequest, within_bind, run_imgInfo,
      within_imgInfo,
      within_srcNodeId, within_pure, and_true]
    omega
  | beginHost => simp only [frameNeeds, hs, within_bind, within_dstNodeId, within_pure, and_true]
  | _ =>
    unfold frameNeeds
    rw [hs]
    exact iff_of_true (within_pure _) (Nat.zero_le _)

theorem within_receivingRun (hs : w.core.currentState = .clientReceiving) :
    (sClientReceivingRun env w).Within env.beyond b ↔
      frameNeeds env w w.core.currentEvent.type b ≤ b.length := by
  unfold sClientReceivingRun
  cases w.core.currentEvent.type with
  | imageChunk =>
    simp only [frameNeeds, hs, within_bind, within_payloadLength, run_payloadLength]
    by_cases hlarge : Dfu.payloadLength env.beyond b > bmDfuMaxChunkSize
    · rw [if_pos hlarge, if_neg (by omega)]
      exact and_iff_left (within_pure _)
    by_cases hstop : env.timerStop w.log.length = .ok
    · have hgoes : ¬(bmTimerStop env .chunk w).1 ≠ .ok := not_not.mpr hstop
      rw [if_neg hlarge, if_neg hgoes, if_pos ⟨by omega, hstop⟩]
      simp only [within_bind, within_payloadBuf, within_pure, and_true]
      omega
    · have hfails : (bmTimerStop env .chunk w).1 ≠ .ok := hstop
      rw [if_neg hlarge, if_pos hfails, if_neg (fun h => hstop h.2)]
      exact and_iff_left (within_pure _)
  | _ =>
    unfold frameNeeds
    rw [hs]
    exact iff_of_true (within_pure _) (Nat.zero_le _)

theorem within_hostReqUpdateRun (hs : w.core.currentState = .hostReqUpdate) :
    (sHostReqUpdateRun env w).Within env.beyond b ↔
      frameNeeds env w w.core.currentEvent.type b ≤ b.length := by
  unfold sHostReqUpdateRun
  cases w.core.currentEvent.type with
  | ackReceived =>
    simp only [frameNeeds, hs]
    by_cases hstop : env.timerStop w.log.length = .ok
    · have hgoes : ¬(bmTimerStop env .ack w).1 ≠ .ok := not_not.mpr hstop
      rw [if_neg hgoes, if_neg (not_not.mpr hstop)]
      simp only [within_bind, within_resultSuccess, run_resultSuccess]
      split
      · exact and_iff_left (within_pure _)
      · simp only [within_bind, within_resultErrCode, within_pure, and_true]
        omega
    · have hfails : (bmTimerStop env .ack w).1 ≠ .ok := hstop
      rw [if_pos hfails, if_pos hstop]
      simp [within_pure]
  | abort => simp [frameNeeds, hs, within_bind, within_pure]
  | _ =>
    unfold frameNeeds
    rw [hs]
    exact iff_of_true (within_pure _) (Nat.zero_le _)

theorem within_hostUpdateRun (hs : w.core.currentState = .hostUpdate) :
    (sHostUpdateRun env w).Within env.beyond b ↔
      frameNeeds env w w.core.currentEvent.type b ≤ b.length := by
  unfold sHostUpdateRun
  cases w.core.currentEvent.type with
  | chunkRequest =>
    simp only [frameNeeds, hs]
    by_cases hstart : env.timerStart w.log.length = .ok
    · have hgoes : ¬(bmTimerStart env .heartbeat w).1 ≠ .ok := not_not.mpr hstart
      rw [if_neg hgoes, if_neg (not_not.mpr hstart)]
      simp only [within_bind, within_seqNum, within_pure, and_true]
    · have hfails : (bmTimerStart env .heartbeat w).1 ≠ .ok := hstart
      rw [if_pos hfails, if_pos hstart]
      simp [within_pure]
  | updateEnd =>
    simp only [frameNeeds, hs]
    by_cases hstop : env.timerStop w.log.length = .ok
    · have hgoes : ¬(bmTimerStop env .update w).1 ≠ .ok := not_not.mpr hstop
      rw [if_neg hgoes, if_neg (not_not.mpr hstop)]
      simp only [within_bind, within_resultSuccess, run_resultSuccess, hostUpdateComplete,
        within_pure, and_true,
        bmTimerStop_snd, emit_host]
      cases w.host.updateCompleteCallback with
      | none => simp [within_pure]
      | some cb =>
        simp only [within_bind, within_resultErrCode, within_pure, and_true, Option.isSome_some,
          if_true]
        omega
    · have hfails : (bmTimerStop env .update w).1 ≠ .ok := hstop
      rw [if_pos hfails, if_pos hstop]
      simp [within_pure]
  | abort => simp [frameNeeds, hs, within_bind, within_pure]
  | _ =>
    unfold frameNeeds
    rw [hs]
    exact iff_of_true (within_pure _) (Nat.zero_le _)

/-- A state reads its frame within bounds if and only if the frame has the bytes that the state
needs. -/
theorem within_run : (run env buf w).Within env.beyond b ↔
    frameNeeds env w w.core.currentEvent.type b ≤ b.length := by
  unfold run
  cases hs : w.core.currentState with
  | idle => exact within_idleRun hs
  | clientReceiving => exact within_receivingRun hs
  | hostReqUpdate => exact within_hostReqUpdateRun hs
  | hostUpdate => exact within_hostUpdateRun hs
  | _ => simp [frameNeeds, hs, within_pure]

theorem within_hostReqUpdateEntry (h : 35 ≤ b.length) :
    (sHostReqUpdateEntry env w).Within beyond b := by
  have hdst : dstNodeId.Within beyond b := within_dstNodeId.mpr (by omega)
  refine within_bind.mpr ⟨within_imgInfo.mpr h, ?_⟩
  rw [run_imgInfo]
  exact within_bind.mpr ⟨hdst, within_pure _⟩

end Bounds

end Traced

/-! ## What lies behind a frame -/

/-- Something else lies behind the frames. -/
def Env.withBeyond (env : Env) (beyond : Nat → UInt8) : Env := { env with beyond := beyond }

section Beyond
variable (env : Env) (beyond : Nat → UInt8) {w : World} {evt : BmDfuEvent} {buf : BmDfuBuf}

/-- The run functions on a frame that has the bytes they need. -/
theorem run_withBeyond (hbuf : w.core.currentEvent.buf = some buf)
    (hfits : frameNeeds env w w.core.currentEvent.type buf.bytes ≤ buf.bytes.length) :
    (dfuStates (env.withBeyond beyond) w.core.currentState).run w =
      (dfuStates env w.core.currentState).run w := by
  have hwithin : (Traced.run env buf w).Within env.beyond buf.bytes := Traced.within_run.mpr hfits
  have hplain := Traced.run_run env w hbuf
  have hother := Traced.run_run (env.withBeyond beyond) w hbuf
  -- what lies behind the frame is an argument of the traced functions
  have htraced : Traced.run (env.withBeyond beyond) buf w = Traced.run env buf w := by
    unfold Traced.run
    cases w.core.currentState <;> rfl
  have hbeyond : (env.withBeyond beyond).beyond = beyond := rfl
  rw [htraced, hbeyond, hwithin.run_eq beyond, hplain] at hother
  exact congrArg Prod.fst hother.symm

/-- Without a frame there is nothing to read. -/
theorem run_withBeyond_none (hbuf : w.core.currentEvent.buf = none) :
    (dfuStates (env.withBeyond beyond) w.core.currentState).run w =
      (dfuStates env w.core.currentState).run w := by
  have habort : abortErr (env.withBeyond beyond) w.core.currentEvent =
      abortErr env w.core.currentEvent := by
    simp only [abortErr, hbuf]
  cases w.core.currentState with
  | idle =>
    change sIdleRun (env.withBeyond beyond) w = sIdleRun env w
    unfold sIdleRun bmDfuClientProcessUpdateRequest
    simp only [bmDfuGetCurrentEvent, hbuf]
    cases w.core.currentEvent.type <;> rfl
  | clientReceiving =>
    change sClientReceivingRun (env.withBeyond beyond) w = sClientReceivingRun env w
    unfold sClientReceivingRun
    simp only [bmDfuGetCurrentEvent, hbuf]
    cases w.core.currentEvent.type <;> rfl
  | hostReqUpdate =>
    change sHostReqUpdateRun (env.withBeyond beyond) w = sHostReqUpdateRun env w
    unfold sHostReqUpdateRun
    simp only [bmDfuGetCurrentEvent, hbuf, habort]
    rfl
  | hostUpdate =>
    change sHostUpdateRun (env.withBeyond beyond) w = sHostUpdateRun env w
    unfold sHostUpdateRun
    simp only [bmDfuGetCurrentEvent, hbuf, habort]
    rfl
  | _ => rfl

/-- The entry functions: only HostReqUpdate looks into the frame of the event. -/
theorem onEntry_withBeyond (w : World)
    (hfits : w.core.currentState = .hostReqUpdate →
      ∀ buf ∈ w.core.currentEvent.buf, 35 ≤ buf.bytes.length) :
    w.onEntry (env.withBeyond beyond) = w.onEntry env := by
  unfold World.onEntry
  cases hs : w.core.currentState with
  | hostReqUpdate =>
    change (sHostReqUpdateEntry (env.withBeyond beyond) w).2 = (sHostReqUpdateEntry env w).2
    cases hbuf : w.core.currentEvent.buf with
    | none => simp only [sHostReqUpdateEntry, bmDfuGetCurrentEvent, hbuf]
    | some buf =>
      have hwithin : (Traced.sHostReqUpdateEntry env w).Within env.beyond buf.bytes :=
        Traced.within_hostReqUpdateEntry (hfits hs buf hbuf)
      have hplain := Traced.run_hostReqUpdateEntry env w hbuf
      have hother := Traced.run_hostReqUpdateEntry (env.withBeyond beyond) w hbuf
      have hsame : (Traced.sHostReqUpdateEntry env w).run beyond buf.bytes =
          (Traced.sHostReqUpdateEntry env w).run env.beyond buf.bytes := hwithin.run_eq beyond
      exact congrArg (·.1.2) (hother.symm.trans (hsame.trans hplain))
  | _ => rfl

theorem moved_withBeyond (u : World)
    (hfits : u.core.newState = .hostReqUpdate →
      ∀ buf ∈ u.core.currentEvent.buf, 35 ≤ buf.bytes.length) :
    u.moved (env.withBeyond beyond) = u.moved env := by
  by_cases hs : u.core.currentState = .hostUpdate
  · rw [moved_eq_of_hostUpdate _ hs, moved_eq_of_hostUpdate _ hs]
    refine onEntry_withBeyond env beyond ((sHostUpdateExit u).2.entering u.core.newState)
      fun hnew => ?_
    change ∀ buf ∈ (sHostUpdateExit u).2.core.currentEvent.buf, _
    rw [hostUpdateExit_core]
    exact hfits hnew
  · rw [moved_eq _ hs, moved_eq _ hs]
    exact onEntry_withBeyond env beyond (u.entering u.core.newState) hfits

/-- An iteration on a frame that has the bytes it needs. -/
theorem consume_withBeyond (hsettled : Settled w)
    (hfits : ∀ buf ∈ evt.buf, frameNeeds env w evt.type buf.bytes ≤ buf.bytes.length)
    (hbegins : evt.type = .beginHost → ∀ buf ∈ evt.buf, 35 ≤ buf.bytes.length) :
    consume (env.withBeyond beyond) evt w = consume env evt w := by
  have hrun : w.afterRun (env.withBeyond beyond) evt = w.afterRun env evt := by
    refine congrArg Prod.snd ?_
    cases hbuf : evt.buf with
    | none => exact run_withBeyond_none env beyond (w := w.withEvent evt) hbuf
    | some buf => exact run_withBeyond env beyond (w := w.withEvent evt) hbuf (hfits buf hbuf)
  obtain ⟨-, hcases⟩ := consume_cases env evt hsettled
  obtain ⟨-, hother⟩ := consume_cases (env.withBeyond beyond) evt hsettled
  rw [hrun] at hother
  rcases hcases with ⟨hstays, hu⟩ | ⟨hmoves, hnew, hu⟩
  · rcases hother with ⟨-, hu'⟩ | ⟨hmoves, -, -⟩
    · rw [hu, hu']
    · rw [hstays] at hmoves
      cases hmoves
  · rcases hother with ⟨hstays, -⟩ | ⟨-, -, hu'⟩
    · rw [hmoves] at hstays
      cases hstays
    · rw [hu, hu']
      refine moved_withBeyond env beyond _ fun hreq => ?_
      obtain ⟨buf, -, hevt, hcurrent, -⟩ := afterRun_toHostReqUpdate hsettled hmoves hnew hreq
      change ∀ buf ∈ ((w.afterRun env evt).entering .hostReqUpdate).core.currentEvent.buf, _
      rw [hcurrent]
      have hbuf : evt.buf = some buf := by rw [hevt]
      exact hbuf ▸ hbegins (by rw [hevt])

end Beyond

/-! ## Runs -/

/-- The buffer of a local request holds a whole Start frame. -/
def BeginsWhole (evt : BmDfuEvent) : Prop := evt.type = .beginHost →
    ∀ buf ∈ evt.buf, 35 ≤ buf.bytes.length

/-- What arrives has the addresses and the type of a frame, and a frame that is taken from the queue
has the bytes that the current state needs. -/
def FrameFits (env : Env) (w : World) : Action → Prop
  | .frame payload => 17 ≤ payload.length
  | .turn => ∀ evt ∈ w.queue.head?, evt.type ≠ .beginHost → ∀ buf ∈ evt.buf,
      frameNeeds env w evt.type buf.bytes ≤ buf.bytes.length
  | _ => True

instance (env : Env) (w : World) (a : Action) : Decidable (FrameFits env w a) :=
  match a with
  | .frame payload => inferInstanceAs (Decidable (17 ≤ payload.length))
  | .turn => inferInstanceAs (Decidable (∀ evt ∈ w.queue.head?, _ → ∀ buf ∈ evt.buf, _))
  | .chunkTimer | .ackTimer | .heartbeatTimer | .updateTimer | .initiateUpdate .. | .queueData _ =>
    inferInstanceAs (Decidable True)

section Runs
variable {env : Env} {w : World} {evt e : BmDfuEvent}

theorem mem_queueSend (he : e ∈ (bmQueueSend evt w).2.queue) : e ∈ w.queue ∨ e = evt := by
  unfold bmQueueSend at he
  split at he
  · exact (List.mem_append.mp he).imp_right List.mem_singleton.mp
  · exact .inl he

theorem frameEvent_ne_beginHost (type : UInt8) : frameEvent type ≠ some .beginHost := by
  fun_cases frameEvent type <;> simp

theorem mem_processMessage {buf : BmDfuBuf} (he : e ∈ (bmDfuProcessMessage env buf w).queue) :
    e ∈ w.queue ∨ e.type ≠ .beginHost := by
  unfold bmDfuProcessMessage bmFree at he
  dsimp only at he
  split at he
  · exact .inl he
  · split at he
    · exact .inl he
    · split at he
      next type htype =>
        have hsent : e ∈ (bmQueueSend { type := type, buf := some buf } w).2.queue := by
          split at he <;> exact he
        refine (mem_queueSend hsent).imp_right ?_
        rintro rfl rfl
        exact frameEvent_ne_beginHost _ htype
      · exact .inl he

theorem mem_initiateUpdate {info : BmDfuImgInfo} {dest : UInt64} {fn : Option Nat} {timeoutMs : Nat}
    {internal : Bool} (he : e ∈ (bmDfuInitiateUpdate env info dest fn timeoutMs internal w).2.queue)
    :
    e ∈ w.queue ∨ BeginsWhole e := by
  have hrefuse : ∀ (cb : Option UpdateFinishCb) (u : World), e ∈ (match cb with
      | some cb => u.emit (.finishCallback cb false .inProgress dest)
      | none => u).queue → e ∈ u.queue := by
    intro cb u hmem
    split at hmem <;> exact hmem
  let buf : BmDfuBuf :=
    { ptr := (bmMalloc env w).2.log.length
      bytes := startFrame w.core.selfNodeId dest info
      finishCb := fn.map fun f => { fn := f, call := w.log.length }
      timeoutMs := timeoutMs }
  have hbuf : buf.bytes.length = 35 := by simp [buf, startFrame, dfuImgStartOffsetBytes]
  have hsent : e ∈ (bmQueueSend { type := .beginHost, buf := some buf }
    (bmMalloc env w).2).2.queue →
      e ∈ w.queue ∨ BeginsWhole e := by
    intro hmem
    refine (mem_queueSend hmem).imp_right ?_
    rintro rfl - b hb
    rw [← Option.some.inj hb, hbuf]
  unfold bmDfuInitiateUpdate bmFree at he
  dsimp only at he
  split at he
  · exact .inl he
  · split at he
    · exact .inl (hrefuse _ w he)
    · split at he
      · exact .inl he
      · split at he
        · have hmem := hrefuse _ _ he
          exact hsent hmem
        · exact hsent he

/-- Whatever comes into the queue, a local request is whole. -/
theorem mem_act {a : Action} (hsettled : Settled w) (he : e ∈ (act env w a).queue) :
    e ∈ w.queue ∨ BeginsWhole e := by
  have hother : e.type ≠ .beginHost → BeginsWhole e := fun hne heq => absurd heq hne
  have hsend : ∀ evt : BmDfuEvent, evt.type ≠ .beginHost → e ∈ (bmQueueSend evt w).2.queue →
      e ∈ w.queue ∨ BeginsWhole e := by
    intro evt hne hmem
    refine (mem_queueSend hmem).imp_right fun heq => hother ?_
    rwa [heq]
  cases a with
  | frame payload =>
    unfold act dfuCopyAndProcessMessage at he
    dsimp only at he
    split at he
    · split at he
      · exact (mem_processMessage he).imp_right hother
      · exact .inl he
    · exact .inl he
  | chunkTimer | ackTimer | updateTimer => exact hsend _ (by decide) he
  | heartbeatTimer => exact .inl he
  | initiateUpdate info dest fn timeoutMs internal => exact mem_initiateUpdate he
  | queueData data =>
    unfold act bmDfuHostQueueData at he
    dsimp only at he
    split at he <;> exact .inl he
  | turn =>
    cases hqueue : w.queue with
    | nil =>
      rw [act_turn_nil env hqueue, hqueue] at he
      exact .inl he
    | cons evt rest =>
      rw [act_turn_cons env hqueue, released_queue] at he
      rcases (consume_grows env evt (w := w.withQueue rest) hsettled).queue.mem he with hmem | rfl
      · exact .inl (List.mem_cons_of_mem evt hmem)
      · exact .inr (hother (by decide))

/-- An action whose frames fit does not depend on what lies behind them. -/
theorem act_withBeyond (beyond : Nat → UInt8) {a : Action} (hsettled : Settled w)
    (hbegins : ∀ evt ∈ w.queue, BeginsWhole evt) (hfits : FrameFits env w a) :
    act (env.withBeyond beyond) w a = act env w a := by
  cases a with
  | frame payload =>
    have hwithin : (Traced.dfuCopyAndProcessMessage env payload.length w).Within env.beyond
        payload :=
      Traced.within_copyAndProcessMessage.mpr hfits
    have htraced : Traced.dfuCopyAndProcessMessage (env.withBeyond beyond) payload.length w =
        Traced.dfuCopyAndProcessMessage env payload.length w := rfl
    have hother := Traced.run_copyAndProcessMessage (env.withBeyond beyond) w payload
    have hbeyond : (env.withBeyond beyond).beyond = beyond := rfl
    rw [htraced, hbeyond, hwithin.run_eq beyond,
      Traced.run_copyAndProcessMessage env w payload] at hother
    exact (Prod.mk.inj hother).1.symm
  | turn =>
    cases hqueue : w.queue with
    | nil => rw [act_turn_nil _ hqueue, act_turn_nil _ hqueue]
    | cons evt rest =>
      have hhead : evt ∈ w.queue.head? := by rw [hqueue]; rfl
      have hwhole : BeginsWhole evt := hbegins evt (hqueue ▸ List.mem_cons_self)
      rw [act_turn_cons _ hqueue, act_turn_cons _ hqueue]
      refine congrArg (World.released evt)
        (consume_withBeyond env beyond (w := w.withQueue rest) hsettled ?_ hwhole)
      intro buf hbuf
      by_cases hlocal : evt.type = .beginHost
      · have hlen := hwhole hlocal buf hbuf
        rw [hlocal]
        refine le_trans ?_ hlen
        unfold frameNeeds
        split <;> simp_all
      · exact hfits evt hhead hlocal buf hbuf
  | _ => rfl

end Runs

/-- The reads of received frames. The intake, read by read, reads a payload within its bounds if and
only if it has the addresses and the type of a frame; the run function of whatever state takes the
event of a frame reads it within its bounds if and only if it has the bytes that the state needs. In
a run whose frames are so, what lies behind them plays no part: the checksum and the flash depend on
the received bytes alone. -/
theorem frame_reads_iff (env : Env) (self : UInt64) (info : RebootClientUpdateInfo)
    (flash : Nat → UInt8)
    (actions : List Action) :
    (∀ (w : World) (payload : List UInt8),
      (Traced.dfuCopyAndProcessMessage env payload.length w).run env.beyond payload =
          (dfuCopyAndProcessMessage env payload w, payload) ∧
        ((Traced.dfuCopyAndProcessMessage env payload.length w).Within env.beyond payload ↔
          17 ≤ payload.length)) ∧
    (∀ (w : World) (buf : BmDfuBuf), w.core.currentEvent.buf = some buf →
      (Traced.run env buf w).run env.beyond buf.bytes =
          ((dfuStates env w.core.currentState).run w, buf.bytes) ∧
        ((Traced.run env buf w).Within env.beyond buf.bytes ↔
          frameNeeds env w w.core.currentEvent.type buf.bytes ≤ buf.bytes.length)) ∧
    (Along (act env) (FrameFits env) (bmDfuInit self info flash) actions → ∀ beyond,
      actions.foldl (act (env.withBeyond beyond)) (bmDfuInit self info flash) =
        actions.foldl (act env) (bmDfuInit self info flash)) := by
  refine ⟨fun w payload => ⟨Traced.run_copyAndProcessMessage env w payload,
    Traced.within_copyAndProcessMessage⟩,
    fun w buf hbuf => ⟨Traced.run_run env w hbuf, Traced.within_run⟩, ?_⟩
  intro halong beyond
  let Inv (w : World) : Prop := Settled w ∧ ∀ evt ∈ w.queue, BeginsWhole evt
  have hinit : Inv (bmDfuInit self info flash) := by
    constructor
    · intro hpending
      cases hpending
    · intro evt hevt hlocal
      rw [List.mem_singleton.mp hevt] at hlocal
      cases hlocal
  have hstep : ∀ w a, Inv w → FrameFits env w a →
      Inv (act env w a) ∧ act (env.withBeyond beyond) w a = act env w a := by
    rintro w a ⟨hsettled, hbegins⟩ hfits
    refine ⟨⟨act_settled env hsettled a, fun evt hevt => ?_⟩,
      act_withBeyond beyond hsettled hbegins hfits⟩
    exact (mem_act hsettled hevt).elim (hbegins evt) id
  exact foldl_eq_of_along hstep hinit halong

/-- Node 9 sends node 7 an image of one byte, and then a chunk with `payload`. -/
def receiveChunk (len : Nat) (payload : List UInt8) : List Action :=
  [.turn, .turn, .frame (startFrame 9 7 ⟨1, 1, crc16Ccitt 0 [0xAB], 0, 0, 0, 2⟩), .turn, .turn,
    .frame (payloadFrame 9 7 len payload)]

/-- A chunk that has the length that it states. -/
theorem frame_reads_oneByte :
    (receiveChunk 1 [0xAB] ++ [Action.turn]).foldl
    (act ((Env.steady 1 4096 []).withBeyond fun _ => 7))
        (bmDfuInit 7 .zero fun _ => 0) =
      (receiveChunk 1 [0xAB] ++ [Action.turn]).foldl (act (.steady 1 4096 []))
      (bmDfuInit 7 .zero fun _ => 0) :=
  (frame_reads_iff (.steady 1 4096 []) 7 .zero (fun _ => 0)
  (receiveChunk 1 [0xAB] ++ [Action.turn])).2.2
    (by decide +kernel) _

/-- A chunk that states two bytes and has one is read behind its end, and what lies there goes into
the checksum. A frame of five bytes is read behind its end when it arrives. -/
theorem frame_read_behind_end :
    let env := Env.steady 1 4096 []
    let w := (receiveChunk 2 [0xAB]).foldl (act env) (bmDfuInit 7 .zero fun _ => 0)
    w.core.currentState = .clientReceiving ∧
      (∃ evt ∈ w.queue.head?, evt.type = .imageChunk ∧ ∃ buf ∈ evt.buf,
        buf.bytes = payloadFrame 9 7 2 [0xAB] ∧
        ¬ (Traced.run env buf (w.withEvent evt)).Within env.beyond buf.bytes) ∧
      (act env w .turn).client.runningCrc16 ≠
        (act (env.withBeyond fun _ => 1) w .turn).client.runningCrc16 ∧
      ¬ (Traced.dfuCopyAndProcessMessage env 5 w).Within env.beyond [0xD0, 0, 0, 0, 0] := by
  decide +kernel

end BmCore.Dfu
