import BmCore.Dfu.Intake
import BmCore.Library.Runs

/-!
# A node in its surroundings

Everything that can happen to the DFU subsystem of one node: frames arrive, timers expire, the
application asks for an update or supplies stream data, and the event thread takes a turn. A run
is any sequence of these actions.
-/
namespace BmCore.Dfu
open Library

inductive Action where
  | frame (payload : List UInt8)
  | chunkTimer
  | ackTimer
  | heartbeatTimer
  | updateTimer
  | initiateUpdate (info : BmDfuImgInfo) (dest : UInt64) (fn : Option Nat) (timeoutMs : Nat)
      (internal : Bool)
  | queueData (data : List UInt8)
  | turn
  deriving DecidableEq

def act (env : Env) (w : World) : Action → World
  | .frame payload => dfuCopyAndProcessMessage env payload w
  | .chunkTimer => chunkTimerHandler w
  | .ackTimer => ackTimerHandler w
  | .heartbeatTimer => heartbeatTimerHandler env w
  | .updateTimer => updateTimerHandler w
  | .initiateUpdate info dest fn timeoutMs internal =>
    (bmDfuInitiateUpdate env info dest fn timeoutMs internal w).2
  | .queueData data => (bmDfuHostQueueData env data w).2
  | .turn => bmDfuEventThread env w

/-- The event thread after an event: its buffer is freed. -/
def World.released (evt : BmDfuEvent) (w : World) : World :=
  match evt.buf with
  | some buf => bmFree buf.ptr w
  | none => w

section Released
variable (evt : BmDfuEvent) (w : World)

@[simp] theorem released_core : (w.released evt).core = w.core := by
  unfold World.released; split <;> rfl
@[simp] theorem released_client : (w.released evt).client = w.client := by
  unfold World.released; split <;> rfl
@[simp] theorem released_host : (w.released evt).host = w.host := by
  unfold World.released; split <;> rfl
@[simp] theorem released_queue : (w.released evt).queue = w.queue := by
  unfold World.released; split <;> rfl
@[simp] theorem released_rebootInfo : (w.released evt).rebootInfo = w.rebootInfo := by
  unfold World.released; split <;> rfl

theorem released_seen {p : Effect → Bool} (hp : ∀ ptr, p (.free ptr) = false) :
    (w.released evt).seen p = w.seen p := by
  unfold World.released
  split
  · simp [bmFree, World.seen, hp]
  · rfl

end Released

theorem act_turn_nil (env : Env) {w : World} (h : w.queue = []) : act env w .turn = w := by
  simp [act, bmDfuEventThread, h]

theorem act_turn_cons (env : Env) {w : World} {evt : BmDfuEvent} {rest : List BmDfuEvent}
    (h : w.queue = evt :: rest) :
    act env w .turn = (consume env evt (w.withQueue rest)).released evt := by
  simp only [act, bmDfuEventThread, h]
  rfl

/-- What an action other than a turn of the event thread may change: the queue, the source of the
image of a host, and the log. -/
structure Outside (w u : World) : Prop where
  client : u.client = w.client
  rebootInfo : u.rebootInfo = w.rebootInfo
  currentState : u.core.currentState = w.core.currentState
  pendingStateChange : u.core.pendingStateChange = w.core.pendingStateChange
  newState : u.core.newState = w.core.newState
  updateFinishCallback : u.core.updateFinishCallback = w.core.updateFinishCallback
  updateCompleteCallback : u.host.updateCompleteCallback = w.host.updateCompleteCallback
  clientNodeId : u.host.clientNodeId = w.host.clientNodeId
  dataQueue : u.host.dataQueue = none ↔ w.host.dataQueue = none
  ofFlash : u.seen Effect.ofFlash = w.seen Effect.ofFlash
  log : w.log <:+ u.log

theorem Outside.refl (w : World) : Outside w w :=
  ⟨rfl, rfl, rfl, rfl, rfl, rfl, rfl, rfl, .rfl, rfl, List.suffix_rfl⟩

theorem Outside.trans {w u v : World} (h : Outside w u) (g : Outside u v) : Outside w v :=
  ⟨g.client.trans h.client, g.rebootInfo.trans h.rebootInfo, g.currentState.trans h.currentState,
    g.pendingStateChange.trans h.pendingStateChange, g.newState.trans h.newState,
    g.updateFinishCallback.trans h.updateFinishCallback,
    g.updateCompleteCallback.trans h.updateCompleteCallback, g.clientNodeId.trans h.clientNodeId,
    g.dataQueue.trans h.dataQueue, g.ofFlash.trans h.ofFlash, h.log.trans g.log⟩

theorem outside_emit {e : Effect} (he : e.ofFlash = false) (w : World) : Outside w (w.emit e) :=
  ⟨rfl, rfl, rfl, rfl, rfl, rfl, rfl, rfl, .rfl, by simp [World.seen, he],
    List.suffix_cons e _⟩

theorem outside_internal (b : Bool) (w : World) :
    Outside w (w.withCore { w.core with internal := b }) :=
  ⟨rfl, rfl, rfl, rfl, rfl, rfl, rfl, rfl, .rfl, rfl, List.suffix_rfl⟩

theorem outside_queueSend (evt : BmDfuEvent) (w : World) : Outside w (bmQueueSend evt w).2 := by
  unfold bmQueueSend
  split
  · exact ⟨rfl, rfl, rfl, rfl, rfl, rfl, rfl, rfl, .rfl, rfl, List.suffix_rfl⟩
  · exact .refl w

theorem outside_processMessage (env : Env) (buf : BmDfuBuf) (w : World) :
    Outside w (bmDfuProcessMessage env buf w) := by
  unfold bmDfuProcessMessage bmFree
  dsimp only
  split
  · exact outside_emit rfl w
  · split
    · exact outside_emit rfl w
    · split
      · split
        · exact (outside_queueSend _ w).trans (outside_emit rfl _)
        · exact outside_queueSend _ w
      · exact .refl w

/-- Calling a completion callback directly. -/
theorem outside_refuse (cb : Option UpdateFinishCb) (dest : UInt64) (w : World) :
    Outside w (match cb with
      | some cb => w.emit (.finishCallback cb false .inProgress dest)
      | none => w) := by
  split
  · exact outside_emit rfl w
  · exact .refl w

theorem outside_initiateUpdate (env : Env) (info : BmDfuImgInfo) (dest : UInt64)
    (fn : Option Nat) (timeoutMs : Nat) (internal : Bool) (w : World) :
    Outside w (bmDfuInitiateUpdate env info dest fn timeoutMs internal w).2 := by
  unfold bmDfuInitiateUpdate bmFree
  dsimp only
  split
  · exact .refl w
  · split
    · exact outside_refuse _ dest w
    · split
      · exact outside_emit rfl w
      · split
        · refine Outside.trans ?_ (outside_refuse _ dest _)
          refine Outside.trans ?_ (outside_emit rfl _)
          exact (outside_emit rfl w).trans (outside_queueSend _ _)
        · refine Outside.trans ?_ (outside_internal internal _)
          exact (outside_emit rfl w).trans (outside_queueSend _ _)

theorem outside_queueData (env : Env) (data : List UInt8) (w : World) :
    Outside w (bmDfuHostQueueData env data w).2 := by
  unfold bmDfuHostQueueData
  split
  next queued hq => exact ⟨rfl, rfl, rfl, rfl, rfl, rfl, rfl, rfl, by simp [hq],
    by simp [World.seen, Effect.ofFlash], by simp⟩
  · exact .refl w

/-- Only a turn of the event thread moves the machine. -/
theorem act_outside (env : Env) (w : World) {a : Action} (ha : a ≠ .turn) :
    Outside w (act env w a) := by
  cases a with
  | frame payload =>
    unfold act dfuCopyAndProcessMessage
    dsimp only
    split
    · split
      · exact (outside_emit rfl w).trans (outside_processMessage env _ _)
      · exact outside_emit rfl w
    · exact .refl w
  | chunkTimer | ackTimer | updateTimer => exact outside_queueSend _ w
  | heartbeatTimer => exact outside_emit rfl w
  | initiateUpdate info dest fn timeoutMs internal =>
    exact outside_initiateUpdate env info dest fn timeoutMs internal w
  | queueData data => exact outside_queueData env data w
  | turn => exact absurd rfl ha

/-- A call that is made outside the event thread. -/
def Effect.ofIntake : Effect → Bool
  | .malloc _ | .free _ | .tx .. | .finishCallback .. | .streamBufferSend _ => true
  | _ => false

section Intake
variable {p : Effect → Bool} (hp : ∀ e, e.ofIntake = true → p e = false)
include hp

theorem seen_intake {e : Effect} (he : e.ofIntake = true) (w : World) :
    (w.emit e).seen p = w.seen p := by
  simp [World.seen, hp e he]

omit hp in
theorem seen_queueSend (evt : BmDfuEvent) (w : World) :
    (bmQueueSend evt w).2.seen p = w.seen p := by
  unfold bmQueueSend
  split <;> rfl

theorem seen_processMessage (env : Env) (buf : BmDfuBuf) (w : World) :
    (bmDfuProcessMessage env buf w).seen p = w.seen p := by
  unfold bmDfuProcessMessage bmFree
  dsimp only
  split
  · exact seen_intake hp rfl w
  · split
    · exact seen_intake hp rfl w
    · split
      · split
        · exact (seen_intake hp rfl _).trans (seen_queueSend _ w)
        · exact seen_queueSend _ w
      · rfl

theorem seen_refuse (cb : Option UpdateFinishCb) (dest : UInt64) (w : World) :
    (match cb with
      | some cb => w.emit (.finishCallback cb false .inProgress dest)
      | none => w).seen p = w.seen p := by
  split
  · exact seen_intake hp rfl w
  · rfl

theorem seen_initiateUpdate (env : Env) (info : BmDfuImgInfo) (dest : UInt64) (fn : Option Nat)
    (timeoutMs : Nat) (internal : Bool) (w : World) :
    (bmDfuInitiateUpdate env info dest fn timeoutMs internal w).2.seen p = w.seen p := by
  have hmalloc : (bmMalloc env w).2.seen p = w.seen p := seen_intake hp rfl w
  unfold bmDfuInitiateUpdate bmFree
  dsimp only
  split
  · rfl
  · split
    · exact seen_refuse hp _ dest w
    · split
      · exact hmalloc
      · split
        · refine (seen_refuse hp _ dest _).trans ((seen_intake hp rfl _).trans ?_)
          exact (seen_queueSend _ _).trans hmalloc
        · exact (seen_queueSend _ _).trans hmalloc

/-- What the event thread alone does is not done by any other action. -/
theorem act_seen (env : Env) (w : World) {a : Action} (ha : a ≠ .turn) :
    (act env w a).seen p = w.seen p := by
  cases a with
  | frame payload =>
    unfold act dfuCopyAndProcessMessage
    dsimp only
    split
    · split
      · exact (seen_processMessage hp env _ _).trans (seen_intake hp rfl w)
      · exact seen_intake hp rfl w
    · rfl
  | chunkTimer | ackTimer | updateTimer => exact seen_queueSend _ w
  | heartbeatTimer => exact seen_intake hp rfl w
  | initiateUpdate info dest fn timeoutMs internal =>
    exact seen_initiateUpdate hp env info dest fn timeoutMs internal w
  | queueData data =>
    unfold act bmDfuHostQueueData
    dsimp only
    split
    · exact seen_intake hp rfl w
    · rfl
  | turn => exact absurd rfl ha

end Intake

/-- The machine stays settled whatever happens. -/
theorem act_settled (env : Env) {w : World} (hw : Settled w) (a : Action) :
    Settled (act env w a) := by
  by_cases ha : a = .turn
  · subst ha
    cases hq : w.queue with
    | nil =>
      rw [act_turn_nil env hq]
      exact hw
    | cons evt rest =>
      rw [act_turn_cons env hq]
      have h := consume_settled env evt (w := w.withQueue rest) hw
      unfold Settled at h ⊢
      rwa [released_core]
  · have h := act_outside env w ha
    unfold Settled
    rw [h.pendingStateChange, h.currentState, h.newState]
    exact hw

end BmCore.Dfu
