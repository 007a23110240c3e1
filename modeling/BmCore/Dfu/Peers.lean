import BmCore.Dfu.Node

/-!
# Peer authentication

The source of a frame is checked against the peer of the session when the frame arrives. A frame
that waits in the queue while a session opens was checked against nothing. The frames the machine
consumes in a session come from its peer in every run in which the queue is clean whenever a
session opens.
-/
namespace BmCore.Dfu
open Library

/-- The node on the other side of the running session. -/
def World.peer (w : World) : Option UInt64 :=
  match w.core.currentState with
  | .init | .idle | .error => none
  | .clientReceiving | .clientValidating | .clientRebootReq | .clientRebootDone
  | .clientActivating => some w.client.hostNodeId
  | .hostReqUpdate | .hostUpdate => some w.host.clientNodeId

/-- Every received frame in the queue comes from `p`. -/
def FramesFrom (env : Env) (p : UInt64) (q : List BmDfuEvent) : Prop :=
  ∀ evt ∈ q, evt.type ≠ .beginHost → ∀ buf ∈ evt.buf, srcNodeId env.beyond buf.bytes = p

instance (env : Env) (p : UInt64) (q : List BmDfuEvent) : Decidable (FramesFrom env p q) :=
  inferInstanceAs (Decidable (∀ evt ∈ q, _ → ∀ buf ∈ evt.buf, _))

/-- The states and frames in which a client acts on the contents of a frame. -/
def clientActsOn : BmDfuState → BmDfuEvtType → Bool
  | .clientReceiving, .imageChunk | .clientReceiving, .receivedUpdateRequest
  | .clientReceiving, .heartbeat | .clientRebootReq, .reboot
  | .clientRebootDone, .updateEnd => true
  | _, _ => false

/-- The frame that the event thread takes next comes from the peer at this moment, if the state
it is consumed in acts on it. -/
def NextAuthentic (env : Env) (w : World) : Prop :=
  ∀ evt ∈ w.queue.head?, ∀ buf ∈ evt.buf, evt.type ≠ .beginHost →
    (clientActsOn w.core.currentState evt.type = true →
      srcNodeId env.beyond buf.bytes = w.client.hostNodeId) ∧
    (w.core.currentState ∈ [.hostReqUpdate, .hostUpdate] →
      srcNodeId env.beyond buf.bytes = w.host.clientNodeId)

instance (env : Env) (w : World) : Decidable (NextAuthentic env w) :=
  inferInstanceAs (Decidable (∀ evt ∈ w.queue.head?, ∀ buf ∈ evt.buf, _ → (_ → _) ∧ (_ → _)))

/-- The peer of the session that consuming `evt` opens. -/
def opensWith (env : Env) (w : World) (evt : BmDfuEvent) : Option UInt64 :=
  match w.core.currentState, evt.type, evt.buf with
  | .idle, .receivedUpdateRequest, some buf =>
    if AcceptsStart env w buf then some (srcNodeId env.beyond buf.bytes) else none
  | .idle, .beginHost, some buf => some (dstNodeId env.beyond buf.bytes)
  | .init, .initSuccess, _ =>
    if w.rebootInfo.magic = dfuRebootMagic then some w.rebootInfo.hostNodeId else none
  | _, _, _ => none

/-- The condition on an action: when the event thread opens a session, the frames left in the
queue come from its peer. -/
def OpensClean (env : Env) (w : World) (a : Action) : Prop :=
  a = .turn → ∀ evt ∈ w.queue.head?, ∀ p ∈ opensWith env w evt, FramesFrom env p w.queue.tail

instance (env : Env) (w : World) (a : Action) : Decidable (OpensClean env w a) :=
  -- through the option, not through all node ids
  have (evt : BmDfuEvent) : Decidable (∀ p ∈ opensWith env w evt, FramesFrom env p w.queue.tail) :=
    Option.decidableForallMem _
  inferInstanceAs (Decidable (_ → ∀ evt ∈ w.queue.head?, ∀ p ∈ opensWith env w evt, _))

/-! ## Node ids -/

section NodeIds
variable (env : Env) (w : World)

theorem clientNextChunk_hostNodeId :
    (clientNextChunk env w).2.client.hostNodeId = w.client.hostNodeId := by
  unfold clientNextChunk
  dsimp only
  split
  · rw [clientTimerErrCheck_client]
    rfl
  · have hframe := (bmDfuProcessEnd_frame env (w.withClient { w.client with
      currentChunk := (w.client.currentChunk + 1) % 2 ^ 16, chunkRetryNum := 0 })).hostNodeId
    split
    · rw [clientError_client]
      exact hframe
    · rw [setPending_client]
      exact hframe

theorem clientAcceptChunk_hostNodeId (payload : List UInt8) :
    (clientAcceptChunk env payload w).2.client.hostNodeId = w.client.hostNodeId := by
  have hframe := (bmDfuProcessPayload_frame env payload (w.withClient { w.client with
    chunkLength := payload.length
    runningCrc16 := crc16Ccitt w.client.runningCrc16 payload })).hostNodeId
  unfold clientAcceptChunk
  dsimp only
  rw [clientNextChunk_hostNodeId]
  split
  · rw [clientError_client]
    exact hframe
  · exact hframe

theorem receivingRun_hostNodeId :
    (sClientReceivingRun env w).2.client.hostNodeId = w.client.hostNodeId := by
  unfold sClientReceivingRun clientChunkTimeout clientResync
  dsimp only
  split
  · split
    · rfl
    · split
      · simp
      · rw [clientAcceptChunk_hostNodeId]
        rfl
  · split
    · simp
    · rw [clientTimerErrCheck_client]
      rfl
  · split
    · simp
    · rw [clientTimerErrCheck_client]
      rfl
  · rw [clientTimerErrCheck_client]
    rfl
  · rfl

theorem rebootReqRun_hostNodeId :
    (sClientRebootReqRun env w).2.client.hostNodeId = w.client.hostNodeId := by
  unfold sClientRebootReqRun
  dsimp only
  split
  · simp
  · rfl
  · split <;> simp
  · rfl

theorem updateDoneRun_hostNodeId :
    (sClientUpdateDoneRun env w).2.client.hostNodeId = w.client.hostNodeId := by
  unfold sClientUpdateDoneRun bmDfuClientFailUpdateAndReboot
  dsimp only
  split
  · simp
  · rfl
  · split <;> simp
  · rfl

theorem validatingEntry_client : (sClientValidatingEntry env w).2.client = w.client := by
  unfold sClientValidatingEntry
  dsimp only
  split
  · simp
  · split <;> simp

theorem hostTimerErrCheck_host (call : BmErr × World) :
    (hostTimerErrCheck env call).2.host = call.2.host := by
  unfold hostTimerErrCheck
  split <;> simp

theorem fillChunk_clientNodeId (len : Nat) :
    (fillChunk env len w).2.2.2.host.clientNodeId = w.host.clientNodeId := by
  unfold fillChunk
  dsimp only
  split
  · rfl
  · split <;> rfl

theorem sendChunk_clientNodeId (req : List UInt8) :
    (bmDfuHostSendChunk env req w).2.host.clientNodeId = w.host.clientNodeId := by
  have hfill := fillChunk_clientNodeId env (bmMalloc env w).2 (chunkPayloadLen w.host)
  unfold bmDfuHostSendChunk bmFree
  dsimp only
  split
  · rfl
  · split
    · simpa using hfill
    · split
      · simpa using hfill
      · simpa using hfill

theorem reqUpdateRun_clientNodeId :
    (sHostReqUpdateRun env w).2.host.clientNodeId = w.host.clientNodeId := by
  unfold sHostReqUpdateRun
  dsimp only
  split
  · split
    · simp
    · split
      · split <;> simp
      · rfl
  · split
    · simp
    · rw [hostTimerErrCheck_host]
      rfl
  · simp
  · rfl

theorem hostUpdateRun_clientNodeId :
    (sHostUpdateRun env w).2.host.clientNodeId = w.host.clientNodeId := by
  have hcomplete : ∀ ok err (v : World), (hostUpdateComplete ok err v).host = v.host := by
    intro ok err v
    unfold hostUpdateComplete
    split <;> rfl
  unfold sHostUpdateRun
  dsimp only
  split
  · split
    next buf _ =>
      split
      · simp
      · rw [hostTimerErrCheck_host]
        exact sendChunk_clientNodeId env (bmTimerStart env .heartbeat w).2 buf.bytes
    · rfl
  · rfl
  · split <;> rfl
  · split
    · simp
    · split
      · simp [hcomplete]
      · rfl
  · simp
  · rfl

end NodeIds

/-! ## One step -/

variable {env : Env}

/-- A step without a transition keeps the peer. -/
theorem afterRun_peer {evt : BmDfuEvent} {w : World}
    (hs : (w.afterRun env evt).core.currentState = w.core.currentState) :
    (w.afterRun env evt).peer = w.peer := by
  unfold World.peer
  rw [hs]
  cases hst : w.core.currentState with
  | init | idle | error => rfl
  | clientValidating | clientActivating =>
    simp only [World.afterRun, hst, dfuStates]
    rfl
  | clientReceiving =>
    simp only [World.afterRun, hst, dfuStates]
    exact congrArg some (receivingRun_hostNodeId env (w.withEvent evt))
  | clientRebootReq =>
    simp only [World.afterRun, hst, dfuStates]
    exact congrArg some (rebootReqRun_hostNodeId env (w.withEvent evt))
  | clientRebootDone =>
    simp only [World.afterRun, hst, dfuStates]
    exact congrArg some (updateDoneRun_hostNodeId env (w.withEvent evt))
  | hostReqUpdate =>
    simp only [World.afterRun, hst, dfuStates]
    exact congrArg some (reqUpdateRun_clientNodeId env (w.withEvent evt))
  | hostUpdate =>
    simp only [World.afterRun, hst, dfuStates]
    exact congrArg some (hostUpdateRun_clientNodeId env (w.withEvent evt))

/-- From Init the machine reaches a session only after a reset with an update on record. -/
theorem opensWith_of_init {evt : BmDfuEvent} {w : World} (hs : w.core.currentState = .init)
    (hpend : w.core.pendingStateChange = false)
    (hp : (w.afterRun env evt).core.pendingStateChange = true)
    (hn : (w.afterRun env evt).core.newState = .clientRebootDone) :
    (w.afterRun env evt).rebootInfo = w.rebootInfo ∧
      opensWith env w evt = some w.rebootInfo.hostNodeId := by
  simp only [World.afterRun, hs, dfuStates, sInitRun] at hp hn ⊢
  split at hp
  next ht =>
    have ht' : evt.type = .initSuccess := ht
    rw [if_pos ht] at hn ⊢
    split at hp
    next hm =>
      have hm' : w.rebootInfo.magic = dfuRebootMagic := hm
      rw [if_pos hm]
      refine ⟨by simp [World.withEvent], ?_⟩
      simp [opensWith, hs, ht', hm']
    next hm =>
      rw [if_neg hm] at hn
      simp at hn
  · simp [World.withEvent, hpend] at hp

theorem reqUpdateEntry_clientNodeId {w : World} {buf : BmDfuBuf}
    (h : w.core.currentEvent.buf = some buf) :
    (sHostReqUpdateEntry env w).2.host.clientNodeId = dstNodeId env.beyond buf.bytes := by
  unfold sHostReqUpdateEntry
  simp only [bmDfuGetCurrentEvent, h]
  split <;> simp

/-- A session that opens in Idle. -/
theorem opensWith_of_idle {evt : BmDfuEvent} {w : World} (hs : w.core.currentState = .idle)
    (hsettled : Settled w) (hp : (w.afterRun env evt).core.pendingStateChange = true)
    (hcur : (w.afterRun env evt).core.currentState = .idle) {p : UInt64}
    (hpeer : ((w.afterRun env evt).moved env).peer = some p) : opensWith env w evt = some p := by
  have hpend := hsettled.pending_eq_false hs (by decide)
  have hafter : w.afterRun env evt = (sIdleRun env (w.withEvent evt)).2 := by
    simp [World.afterRun, hs, dfuStates]
  have hnew : (w.afterRun env evt).core.newState ∈ nextStates .idle := by
    rcases (asks_idleRun env (w.withEvent evt)).target (hafter ▸ hp) with ⟨hp', -⟩ | hmem
    · rw [show (w.withEvent evt).core.pendingStateChange = false from hpend] at hp'
      cases hp'
    · rw [hafter]
      exact hmem
  have hst := moved_currentState env (w.afterRun env evt)
  simp only [nextStates, List.mem_cons, List.not_mem_nil, or_false] at hnew
  rcases hnew with hn | hn | hn
  · unfold World.peer at hpeer
    rw [hst, hn] at hpeer
    cases hpeer
  · obtain ⟨buf, hevt, hacc, htaken⟩ := idleRun_toReceiving (w := w.withEvent evt) hpend
      (hafter ▸ hp) (hafter ▸ hn)
    have hacc' : AcceptsStart env w buf :=
      AcceptsStart.congr (w := w.withEvent evt) rfl hacc
    have hevt' : evt = { type := .receivedUpdateRequest, buf := some buf } := hevt
    unfold World.peer at hpeer
    rw [hst, hn, moved_eq_entry env hcur (by decide) hn] at hpeer
    have hid : (sClientReceivingEntry env ((w.afterRun env evt).entering
        .clientReceiving)).2.client.hostNodeId = srcNodeId env.beyond buf.bytes := by
      show (w.afterRun env evt).client.hostNodeId = _
      rw [hafter, htaken.client]
    have hopen : opensWith env w evt = some (srcNodeId env.beyond buf.bytes) := by
      simp only [opensWith, hs, hevt', if_pos hacc']
    rw [hopen, ← hpeer]
    exact congrArg some hid.symm
  · obtain ⟨buf, -, hevt, hbuf, hentry⟩ :=
      afterRun_toHostReqUpdate hsettled hp (by rw [hs, hn]; decide) hn
    unfold World.peer at hpeer
    rw [hst, hn, hentry] at hpeer
    have hopen : opensWith env w evt = some (dstNodeId env.beyond buf.bytes) := by
      simp only [opensWith, hs, hevt]
    rw [hopen, ← hpeer]
    exact congrArg some (reqUpdateEntry_clientNodeId hbuf).symm

theorem updateDoneEntry_hostNodeId (w : World) :
    (sClientUpdateDoneEntry env w).2.client.hostNodeId = w.rebootInfo.hostNodeId := by
  unfold sClientUpdateDoneEntry bmDfuClientConfirmEnable bmDfuClientFailUpdateAndReboot
  dsimp only
  split
  · split <;> rfl
  · rfl

theorem hostUpdateEntry_host (w : World) : (sHostUpdateEntry env w).2.host = w.host := by
  unfold sHostUpdateEntry bmDfuHostStartUpdateTimer
  dsimp only
  split
  · rfl
  · split <;> rfl

/-- A transition that keeps a peer does not lead to the error state. -/
theorem moved_eq_of_peer {u : World} {s t : BmDfuState} {p : UInt64}
    (hs : u.core.currentState = s) (hnext : nextStates s = [.error, t]) (hne : s ≠ .hostUpdate)
    (hnew : u.core.newState ∈ nextStates s) (hpeer : (u.moved env).peer = some p) :
    u.core.newState = t ∧
      u.moved env = LibSmState.call (dfuStates env t).onStateEntry (u.entering t) := by
  rw [hnext, List.mem_cons, List.mem_singleton] at hnew
  rcases hnew with hn | hn
  · rw [World.peer, moved_currentState, hn] at hpeer
    cases hpeer
  · exact ⟨hn, moved_eq_entry env hs hne hn⟩

/-- A transition inside a session keeps its peer. -/
theorem moved_peer_of_session {u : World} {p : UInt64}
    (hs : u.core.currentState ∉ [.init, .idle])
    (hnew : u.core.newState ∈ nextStates u.core.currentState)
    (hpeer : (u.moved env).peer = some p) : u.peer = some p := by
  have hst := moved_currentState env u
  have hmoved := hpeer
  unfold World.peer at hmoved ⊢
  rw [hst] at hmoved
  cases hw : u.core.currentState with
  | init | idle => simp [hw] at hs
  | error | clientRebootDone | hostUpdate =>
    rw [hw] at hnew
    cases hn : u.core.newState <;> simp_all [nextStates]
  | clientActivating =>
    rw [hw] at hnew
    cases hnew
  | clientReceiving =>
    rw [hw] at hnew
    obtain ⟨hn, hentry⟩ := moved_eq_of_peer hw rfl (by decide) hnew hpeer
    rw [hn, hentry] at hmoved
    rw [← hmoved]
    exact congrArg (fun c : DfuClientCtx => some c.hostNodeId)
      (validatingEntry_client env (u.entering .clientValidating)).symm
  | clientValidating =>
    rw [hw] at hnew
    obtain ⟨hn, hentry⟩ := moved_eq_of_peer hw rfl (by decide) hnew hpeer
    rwa [hn, hentry] at hmoved
  | clientRebootReq =>
    rw [hw] at hnew
    obtain ⟨hn, hentry⟩ := moved_eq_of_peer hw rfl (by decide) hnew hpeer
    rwa [hn, hentry] at hmoved
  | hostReqUpdate =>
    rw [hw] at hnew
    obtain ⟨hn, hentry⟩ := moved_eq_of_peer hw rfl (by decide) hnew hpeer
    rw [hn, hentry] at hmoved
    rw [← hmoved]
    exact congrArg (fun h : DfuHostCtx => some h.clientNodeId)
      (hostUpdateEntry_host (u.entering .hostUpdate)).symm

/-- The peer after a step is the peer before it, or that of the session the step opens. -/
theorem consume_peer {evt : BmDfuEvent} {w : World} (hsettled : Settled w) {p : UInt64}
    (hpeer : (consume env evt w).peer = some p) :
    w.peer = some p ∨ opensWith env w evt = some p := by
  obtain ⟨hs, ⟨-, hu⟩ | ⟨hp, hnew, hu⟩⟩ := consume_cases env evt hsettled
  · rw [hu, afterRun_peer hs] at hpeer
    exact .inl hpeer
  · rw [hu] at hpeer
    by_cases hidle : w.core.currentState = .idle
    · exact .inr (opensWith_of_idle hidle hsettled hp (hs.trans hidle) hpeer)
    by_cases hinit : w.core.currentState = .init
    · right
      have hst := moved_currentState env (w.afterRun env evt)
      rw [hinit] at hnew
      simp only [nextStates, List.mem_cons, List.not_mem_nil, or_false] at hnew
      unfold World.peer at hpeer
      rcases hnew with hn | hn
      · rw [hst, hn] at hpeer
        cases hpeer
      · obtain ⟨hinfo, hopen⟩ := opensWith_of_init hinit
          (hsettled.pending_eq_false hinit (by decide)) hp hn
        rw [hst, hn, moved_eq_entry env (hs.trans hinit) (by decide) hn] at hpeer
        rw [hopen, ← hpeer, ← hinfo]
        exact congrArg some (updateDoneEntry_hostNodeId
          ((w.afterRun env evt).entering .clientRebootDone)).symm
    · left
      rw [← afterRun_peer hs]
      rw [← hs] at hnew
      exact moved_peer_of_session (by simp [hs, hidle, hinit]) hnew hpeer

theorem opensWith_withQueue (w : World) (q : List BmDfuEvent) (evt : BmDfuEvent) :
    opensWith env (w.withQueue q) evt = opensWith env w evt := by
  have hiff : ∀ buf, AcceptsStart env (w.withQueue q) buf ↔ AcceptsStart env w buf :=
    fun buf => ⟨AcceptsStart.congr rfl, AcceptsStart.congr rfl⟩
  unfold opensWith
  simp only [withQueue_core, withQueue_rebootInfo]
  split
  · exact if_congr (hiff _) rfl rfl
  · rfl
  · rfl
  · rfl

/-- What is known between actions: the frames in the queue come from the peer. -/
structure PeerInv (env : Env) (w : World) : Prop where
  settled : Settled w
  frames : ∀ p ∈ w.peer, FramesFrom env p w.queue

theorem FramesFrom.tail {p : UInt64} {evt : BmDfuEvent} {q : List BmDfuEvent}
    (h : FramesFrom env p (evt :: q)) : FramesFrom env p q :=
  fun e he => h e (List.mem_cons_of_mem _ he)

theorem FramesFrom.nops {p : UInt64} {q q' : List BmDfuEvent} (h : FramesFrom env p q)
    (hq : NopsAdded q q') : FramesFrom env p q' := by
  intro evt he htype buf hbuf
  rcases hq.mem he with hmem | rfl
  · exact h evt hmem htype buf hbuf
  · cases hbuf

theorem FramesFrom.snoc {p : UInt64} {evt : BmDfuEvent} {q : List BmDfuEvent}
    (h : FramesFrom env p q) (hevt : evt.type ≠ .beginHost → ∀ buf ∈ evt.buf,
      srcNodeId env.beyond buf.bytes = p) : FramesFrom env p (q ++ [evt]) := by
  intro e he htype buf hbuf
  rcases List.mem_append.mp he with hmem | hmem
  · exact h e hmem htype buf hbuf
  · rw [List.mem_singleton.mp hmem] at htype hbuf
    exact hevt htype buf hbuf

/-- A turn of the event thread on a clean queue keeps the invariant. -/
theorem PeerInv.turn {w : World} (h : PeerInv env w) (hclean : OpensClean env w .turn) :
    PeerInv env (act env w .turn) := by
  refine ⟨act_settled env h.settled .turn, ?_⟩
  cases hq : w.queue with
  | nil =>
    rw [act_turn_nil env hq]
    exact h.frames
  | cons evt rest =>
    rw [act_turn_cons env hq]
    intro p hp
    have hpeer : (consume env evt (w.withQueue rest)).peer = some p := by
      unfold World.peer at hp ⊢
      simpa using hp
    have hrest : FramesFrom env p rest := by
      rcases consume_peer (w := w.withQueue rest) h.settled hpeer with hbefore | hopen
      · have hframes := h.frames p hbefore
        rw [hq] at hframes
        exact hframes.tail
      · rw [opensWith_withQueue] at hopen
        have := hclean rfl evt (by simp [hq]) p hopen
        simpa [hq] using this
    rw [released_queue]
    exact hrest.nops (consume_grows env evt (w := w.withQueue rest) h.settled).queue

/-- Queueing an event keeps the invariant when its frame comes from the peer. -/
theorem PeerInv.queueSend {w : World} (h : PeerInv env w) (evt : BmDfuEvent)
    (hevt : evt.type ≠ .beginHost → ∀ p ∈ w.peer, ∀ buf ∈ evt.buf,
      srcNodeId env.beyond buf.bytes = p) : ∀ p ∈ w.peer, FramesFrom env p
        (bmQueueSend evt w).2.queue := by
  intro p hp
  unfold bmQueueSend
  split
  · exact (h.frames p hp).snoc fun htype buf hbuf => hevt htype p hp buf hbuf
  · exact h.frames p hp

theorem outside_peer {w u : World} (h : Outside w u) : u.peer = w.peer := by
  unfold World.peer
  rw [h.currentState, h.client, h.clientNodeId]

/-- The check made when a frame arrives compares its source with the peer. -/
theorem validPacket_peer {src : UInt64} {w : World} (h : validPacket src w = true) :
    ∀ p ∈ w.peer, src = p := by
  unfold validPacket at h
  unfold World.peer
  cases hs : w.core.currentState <;>
    simp_all [bmDfuClientHostNodeValid, bmDfuHostClientNodeValid]

theorem PeerInv.processMessage {w : World} (h : PeerInv env w) (buf : BmDfuBuf) :
    ∀ p ∈ w.peer, FramesFrom env p (bmDfuProcessMessage env buf w).queue := by
  unfold bmDfuProcessMessage bmFree
  dsimp only
  split
  · exact h.frames
  · split
    · exact h.frames
    next hvalid =>
      rw [not_not] at hvalid
      split
      next type _ =>
        have hsend := h.queueSend { type := type, buf := some buf } (by
          intro _ p hp b hb
          cases hb
          exact validPacket_peer hvalid p hp)
        split <;> exact hsend
      · exact h.frames

/-- Every action with a clean queue keeps the invariant. -/
theorem PeerInv.act {w : World} (h : PeerInv env w) {a : Action} (hclean : OpensClean env w a) :
    PeerInv env (act env w a) := by
  by_cases ha : a = .turn
  · subst ha
    exact h.turn hclean
  refine ⟨act_settled env h.settled a, ?_⟩
  rw [outside_peer (act_outside env w ha)]
  cases a with
  | turn => exact absurd rfl ha
  | frame payload =>
    have hmalloc : PeerInv env (bmMalloc env w).2 := ⟨h.settled, h.frames⟩
    simp only [Dfu.act, dfuCopyAndProcessMessage]
    split
    · split
      · exact hmalloc.processMessage _
      · exact h.frames
    · exact h.frames
  | chunkTimer | ackTimer | updateTimer =>
    refine h.queueSend _ ?_
    intro _ p _ buf hbuf
    cases hbuf
  | heartbeatTimer => exact h.frames
  | initiateUpdate info dest fn timeoutMs internal =>
    have hmalloc : PeerInv env (bmMalloc env w).2 := ⟨h.settled, h.frames⟩
    have hsend : ∀ buf, ∀ p ∈ w.peer, FramesFrom env p
        (bmQueueSend { type := .beginHost, buf := buf } (bmMalloc env w).2).2.queue :=
      fun buf => hmalloc.queueSend _ fun hne => absurd rfl hne
    simp only [Dfu.act, bmDfuInitiateUpdate, bmFree]
    split
    · exact h.frames
    · split
      · cases fn <;> exact h.frames
      · split
        · exact h.frames
        · split
          · cases fn <;> exact hsend _
          · exact hsend _
  | queueData data =>
    simp only [Dfu.act, bmDfuHostQueueData]
    split
    · exact h.frames
    · exact h.frames

theorem PeerInv.nextAuthentic {w : World} (h : PeerInv env w) : NextAuthentic env w := by
  intro evt hevt buf hbuf htype
  have hmem : evt ∈ w.queue := List.mem_of_mem_head? hevt
  refine ⟨fun hacts => ?_, fun hs => ?_⟩
  · refine h.frames w.client.hostNodeId ?_ evt hmem htype buf hbuf
    unfold World.peer
    revert hacts
    cases w.core.currentState <;> cases evt.type <;> simp [clientActsOn]
  · refine h.frames w.host.clientNodeId ?_ evt hmem htype buf hbuf
    unfold World.peer
    simp only [List.mem_cons, List.not_mem_nil, or_false] at hs
    rcases hs with hs | hs <;> simp [hs]

/-- In every run in which the queue is clean whenever a session opens, every frame comes from the
peer at the moment it is consumed. -/
theorem frames_authentic (env : Env) (self : UInt64) (info : RebootClientUpdateInfo)
    (flash : Nat → UInt8) (as : List Action)
    (hclean : Along (act env) (OpensClean env) (bmDfuInit self info flash) as) :
    NextAuthentic env (as.foldl (act env) (bmDfuInit self info flash)) := by
  have hinit : PeerInv env (bmDfuInit self info flash) :=
    ⟨(fun h => by cases h), (fun p hp => by cases hp)⟩
  exact (foldl_invariant (fun w a h hc => h.act hc) hinit hclean).nextAuthentic

/-- Node 9 offers an image to node 7, and a chunk from node `src` is waiting behind the offer. -/
def waitingChunk (src : UInt64) : List Action :=
  [.turn, .turn, .frame (startFrame 9 7 ⟨2, 1, 0, 0, 0, 0, 2⟩),
    .frame (payloadFrame src 7 1 [0xAB]), .turn]

theorem frames_authentic_waitingChunk :
    let w := (waitingChunk 9).foldl (act (Env.steady 1 4096 [])) (bmDfuInit 7 .zero fun _ => 0)
    w.core.currentState = .clientReceiving ∧ w.queue.length = 2 ∧
      NextAuthentic (Env.steady 1 4096 []) w :=
  ⟨by decide +kernel, by decide +kernel,
    frames_authentic (Env.steady 1 4096 []) 7 .zero (fun _ => 0) (waitingChunk 9)
      (by decide +kernel)⟩

/-- A chunk of node 8 becomes part of the image of node 9. -/
theorem waitingChunk_not_authentic :
    let env := Env.steady 1 4096 []
    let w := (waitingChunk 8).foldl (act env) (bmDfuInit 7 .zero fun _ => 0)
    ¬ NextAuthentic env w ∧ w.client.hostNodeId = 9 ∧ (act env w .turn).client.currentChunk = 1 ∧
      peek (act env w .turn).client.imgPageBuf 0 1 = [0xAB] := by
  decide +kernel

end BmCore.Dfu
