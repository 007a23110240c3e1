import BmCore.Common.Util
import BmCore.Dfu.Messages

/-!
# The state of the DFU subsystem

One node: the core, client and host contexts, the event queue, the no-init RAM record that
survives a reset, the flash slot, and the record of every call that left the subsystem. What
the outside answers is an `Env`. An answer depends on the number of calls made before it, so a
fixed environment can answer any two calls differently.

The structure fields are those of the source under the source's names. Left out are the handles
of objects of which there is one each (queue, timers, flash area, tasks), the lengths stored next
to event buffers, which no handler reads, and the power-management hooks.
-/
namespace BmCore.Dfu
open Library

/-- `BmDfuHfsmStates` -/
inductive BmDfuState where
  | init | idle | error | clientReceiving | clientValidating | clientRebootReq
  | clientRebootDone | clientActivating | hostReqUpdate | hostUpdate
  deriving DecidableEq, Repr

/-- `BmDfuEvtType` -/
inductive BmDfuEvtType where
  | none | initSuccess | receivedUpdateRequest | chunkRequest | imageChunk | updateEnd
  | ackReceived | ackTimeout | chunkTimeout | heartbeat | abort | beginHost | rebootRequest
  | reboot | bootComplete
  deriving DecidableEq, Repr

/-- A completion callback: the function, and the call of `bmDfuInitiateUpdate` it came with. -/
structure UpdateFinishCb where
  fn : Nat
  call : Nat
  deriving DecidableEq, Repr

/-- A heap buffer: a frame, or a `DfuHostStartEvent` whose Start frame is followed by the
callback and the timeout. -/
structure BmDfuBuf where
  ptr : Nat
  bytes : List UInt8
  finishCb : Option UpdateFinishCb := .none
  timeoutMs : Nat := 0
  deriving DecidableEq, Repr

/-- `BmDfuEvent` -/
structure BmDfuEvent where
  type : BmDfuEvtType
  buf : Option BmDfuBuf := .none
  deriving DecidableEq, Repr

/-- The event of a received frame. -/
def BmDfuEvent.ofFrame (type : BmDfuEvtType) (bytes : List UInt8) : BmDfuEvent :=
  { type := type, buf := some { ptr := 0, bytes := bytes } }

/-- `ReboootClientUpdateInfo`, in RAM that is not initialised at boot. -/
structure RebootClientUpdateInfo where
  magic : UInt32
  major : UInt8
  minor : UInt8
  hostNodeId : UInt64
  gitSHA : UInt32
  deriving DecidableEq, Repr

def dfuRebootMagic : UInt32 := 0xBADC0FFE

/-- The record after `memset` to zero. -/
def RebootClientUpdateInfo.zero : RebootClientUpdateInfo := ⟨0, 0, 0, 0, 0⟩

/-- `dfu_core_ctx_t`; the state machine context is its current state. -/
structure DfuCoreCtx where
  currentState : BmDfuState
  currentEvent : BmDfuEvent
  pendingStateChange : Bool
  newState : BmDfuState
  error : BmDfuErr
  selfNodeId : UInt64
  clientNodeId : UInt64
  updateFinishCallback : Option UpdateFinishCb
  internal : Bool

/-- `DfuClientCtx`. The counters are the values of the unsigned fields of the source. -/
structure DfuClientCtx where
  imageSize : Nat
  numChunks : Nat
  crc16 : UInt16
  runningCrc16 : UInt16
  chunkLength : Nat
  imgPageByteCounter : Nat
  imgFlashOffset : Nat
  imgPageBuf : Nat → UInt8
  chunkRetryNum : Nat
  currentChunk : Nat
  selfNodeId : UInt64
  hostNodeId : UInt64

/-- `dfu_host_ctx_t`; the data queue is the bytes waiting in the stream buffer, if there is one. -/
structure DfuHostCtx where
  ackRetryNum : Nat
  imgInfo : BmDfuImgInfo
  selfNodeId : UInt64
  clientNodeId : UInt64
  bytesRemaining : Nat
  updateCompleteCallback : Option UpdateFinishCb
  hostTimeoutMs : Nat
  dataQueue : Option (List UInt8)

inductive Timer where
  | chunk | ack | heartbeat | update
  deriving DecidableEq, Repr

/-- A call that leaves the subsystem, with its answer where the code can see one. -/
inductive Effect where
  | timerStart (t : Timer) (r : BmErr)
  | timerStop (t : Timer) (r : BmErr)
  | timerChangePeriod (t : Timer) (r : BmErr)
  | tx (frame : List UInt8) (r : BmErr)
  | flashAreaOpen (r : BmErr)
  | flashAreaClose
  | flashAreaErase (off len : Nat) (r : BmErr)
  | flashAreaWrite (off : Nat) (src : List UInt8) (r : BmErr)
  | setPendingAndReset
  | setConfirmed
  | failUpdateAndReset
  | confirmEnable (en : Bool)
  | hostGetChunk (off len : Nat) (r : BmErr)
  | streamBufferCreate (ok : Bool)
  | streamBufferDelete
  | streamBufferReceive (r : BmErr)
  | streamBufferSend (r : BmErr)
  | malloc (ok : Bool)
  | free (ptr : Nat)
  | finishCallback (cb : UpdateFinishCb) (success : Bool) (err : BmDfuErr) (node : UInt64)
  | divisionByZero
  deriving DecidableEq, Repr

/-- What the hooks, the operating system and the heap answer; the first argument of an answer is
the number of calls made before. -/
structure Env where
  gitSha : UInt32
  flashAreaSize : UInt32
  beyond : Nat → UInt8
  uninit : Nat → Nat → UInt8
  malloc : Nat → Bool
  timerStart : Nat → BmErr
  timerStop : Nat → BmErr
  timerChangePeriod : Nat → BmErr
  bcmpTx : Nat → BmErr
  flashAreaOpen : Nat → BmErr
  flashAreaErase : Nat → BmErr
  flashAreaWrite : Nat → BmErr
  hostGetChunk : (call off len : Nat) → BmErr × List UInt8
  streamBufferCreate : Nat → Bool
  streamBufferReceive : Nat → BmErr × Nat
  streamBufferSend : Nat → BmErr × Nat
  dfuConfirm : Nat → Option Nat

/-- Every call succeeds, and the local image of a host is `image`. -/
def Env.steady (gitSha flashAreaSize : UInt32) (image : List UInt8) : Env where
  gitSha := gitSha
  flashAreaSize := flashAreaSize
  beyond := fun _ => 0
  uninit := fun _ _ => 0
  malloc := fun _ => true
  timerStart := fun _ => .ok
  timerStop := fun _ => .ok
  timerChangePeriod := fun _ => .ok
  bcmpTx := fun _ => .ok
  flashAreaOpen := fun _ => .ok
  flashAreaErase := fun _ => .ok
  flashAreaWrite := fun _ => .ok
  hostGetChunk := fun _ off len => (.ok, (image.drop (off - dfuImgStartOffsetBytes)).take len)
  streamBufferCreate := fun _ => true
  streamBufferReceive := fun _ => (.ok, bmDfuMaxChunkSize)
  streamBufferSend := fun _ => (.ok, bmDfuMaxChunkSize)
  dfuConfirm := fun _ => none

/-- One node. The log holds the latest effect first. -/
structure World where
  core : DfuCoreCtx
  client : DfuClientCtx
  host : DfuHostCtx
  rebootInfo : RebootClientUpdateInfo
  queue : List BmDfuEvent
  flash : Nat → UInt8
  log : List Effect

/-! ## Updates of one part -/

namespace World

def withCore (w : World) (c : DfuCoreCtx) : World := { w with core := c }
def withClient (w : World) (c : DfuClientCtx) : World := { w with client := c }
def withHost (w : World) (h : DfuHostCtx) : World := { w with host := h }
def withRebootInfo (w : World) (i : RebootClientUpdateInfo) : World := { w with rebootInfo := i }
def withQueue (w : World) (q : List BmDfuEvent) : World := { w with queue := q }
def withFlash (w : World) (f : Nat → UInt8) : World := { w with flash := f }

/-- Record a call. -/
def emit (w : World) (e : Effect) : World := { w with log := e :: w.log }

end World

/-! ## Calls -/

def bmTimerStart (env : Env) (t : Timer) (w : World) : BmErr × World :=
  let r := env.timerStart w.log.length
  (r, w.emit (.timerStart t r))

def bmTimerStop (env : Env) (t : Timer) (w : World) : BmErr × World :=
  let r := env.timerStop w.log.length
  (r, w.emit (.timerStop t r))

def bmTimerChangePeriod (env : Env) (t : Timer) (w : World) : BmErr × World :=
  let r := env.timerChangePeriod w.log.length
  (r, w.emit (.timerChangePeriod t r))

/-- `bcmp_tx` of a DFU frame to the global multicast address. -/
def bcmpTx (env : Env) (frame : List UInt8) (w : World) : BmErr × World :=
  let r := env.bcmpTx w.log.length
  (r, w.emit (.tx frame r))

def bmMalloc (env : Env) (w : World) : Bool × World :=
  let r := env.malloc w.log.length
  (r, w.emit (.malloc r))

def bmFree (ptr : Nat) (w : World) : World := w.emit (.free ptr)

def bmDfuClientFlashAreaOpen (env : Env) (w : World) : BmErr × World :=
  let r := env.flashAreaOpen w.log.length
  (r, w.emit (.flashAreaOpen r))

def bmDfuClientFlashAreaClose (w : World) : World := w.emit .flashAreaClose

/-- A successful erase leaves every byte of the range at `0xFF`. -/
def flashAfterErase (r : BmErr) (flash : Nat → UInt8) (off len : Nat) : Nat → UInt8 := fun i =>
  if r = .ok ∧ off ≤ i ∧ i < off + len then 0xFF else flash i

def bmDfuClientFlashAreaErase (env : Env) (off len : Nat) (w : World) : BmErr × World :=
  let r := env.flashAreaErase w.log.length
  (r, (w.withFlash (flashAfterErase r w.flash off len)).emit (.flashAreaErase off len r))

/-- A successful write replaces the bytes of its range. -/
def flashAfterWrite (r : BmErr) (flash : Nat → UInt8) (off : Nat) (src : List UInt8) :
    Nat → UInt8 :=
  if r = .ok then blit flash off src else flash

def bmDfuClientFlashAreaWrite (env : Env) (off : Nat) (src : List UInt8) (w : World) :
    BmErr × World :=
  let r := env.flashAreaWrite w.log.length
  (r, (w.withFlash (flashAfterWrite r w.flash off src)).emit (.flashAreaWrite off src r))

/-- `bm_queue_send` on the event queue of five entries, without waiting. -/
def bmQueueSend (evt : BmDfuEvent) (w : World) : BmErr × World :=
  if w.queue.length < 5 then (.ok, w.withQueue (w.queue ++ [evt])) else (.enomem, w)

end BmCore.Dfu
