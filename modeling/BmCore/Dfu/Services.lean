import BmCore.Dfu.World

/-!
# Services of the DFU core

The functions of `dfu_core.c` that the client and the host call: reading the current event,
asking for a transition and sending the frames both roles use.
-/
namespace BmCore.Dfu
open Library

/-- `bm_dfu_get_current_event` -/
def bmDfuGetCurrentEvent (w : World) : BmDfuEvent := w.core.currentEvent

/-- `bm_dfu_set_error` -/
def bmDfuSetError (error : BmDfuErr) (w : World) : World :=
  w.withCore { w.core with error := error }

/-- `bm_dfu_send_nop_event`: a full queue drops the event. -/
def bmDfuSendNopEvent (w : World) : World := (bmQueueSend { type := .none } w).2

/-- `bm_dfu_set_pending_state_change`: the change happens at the end of the current iteration of
the machine, or of the next one when an entry function asks for it. -/
def bmDfuSetPendingStateChange (newState : BmDfuState) (w : World) : World :=
  bmDfuSendNopEvent
    (w.withCore { w.core with pendingStateChange := true, newState := newState })

/-- `bm_dfu_send_ack` -/
def bmDfuSendAck (env : Env) (dst : UInt64) (success : UInt8) (err : BmDfuErr) (w : World) :
    World :=
  (bcmpTx env (resultFrame bcmpDFUAckMessage w.core.selfNodeId dst success err) w).2

/-- `bm_dfu_req_next_chunk` -/
def bmDfuReqNextChunk (env : Env) (dst : UInt64) (chunkNum : Nat) (w : World) : World :=
  (bcmpTx env (payloadReqFrame w.core.selfNodeId dst chunkNum) w).2

/-- `bm_dfu_update_end` -/
def bmDfuUpdateEnd (env : Env) (dst : UInt64) (success : UInt8) (err : BmDfuErr) (w : World) :
    World :=
  (bcmpTx env (resultFrame bcmpDFUEndMessage w.core.selfNodeId dst success err) w).2

/-- `bm_dfu_send_heartbeat` -/
def bmDfuSendHeartbeat (env : Env) (dst : UInt64) (w : World) : World :=
  (bcmpTx env (frameHeader bcmpDFUHeartbeatMessage w.core.selfNodeId dst) w).2

/-- `bm_dfu_internal` -/
def bmDfuInternal (w : World) : Bool := w.core.internal

end BmCore.Dfu
