import BmCore.Dfu.Activation
import BmCore.Dfu.Link

/-!
# A transfer without losses

One host and one client on a channel that delivers every frame once and in order, where every call
succeeds and no timer expires. Whatever the order in which the two nodes and the channel take their
steps, the client ends with the image in flash.
-/
namespace BmCore.Dfu
open Library

/-- Every call of the subsystem succeeds. -/
structure Succeeds (env : Env) : Prop where
  malloc : ∀ n, env.malloc n = true
  timerStart : ∀ n, env.timerStart n = .ok
  timerStop : ∀ n, env.timerStop n = .ok
  timerChangePeriod : ∀ n, env.timerChangePeriod n = .ok
  bcmpTx : ∀ n, env.bcmpTx n = .ok
  flashAreaOpen : ∀ n, env.flashAreaOpen n = .ok
  flashAreaErase : ∀ n, env.flashAreaErase n = .ok
  flashAreaWrite : ∀ n, env.flashAreaWrite n = .ok

/-- The two nodes, and how many frames of each the other one has received. -/
structure Link where
  host : World
  client : World
  toClient : Nat
  toHost : Nat

inductive LinkMove where
  | hostTurn | clientTurn | toClient | toHost
  deriving DecidableEq

namespace Link

/-- The frames of the host that are on their way. -/
def forClient (l : Link) : List (List UInt8) := l.host.sent.drop l.toClient

def forHost (l : Link) : List (List UInt8) := l.client.sent.drop l.toHost

def step (hostEnv clientEnv : Env) (l : Link) : LinkMove → Link
  | .hostTurn => { l with host := act hostEnv l.host .turn }
  | .clientTurn => { l with client := act clientEnv l.client .turn }
  | .toClient =>
    match l.forClient with
    | frame :: _ =>
      { l with client := act clientEnv l.client (.frame frame), toClient := l.toClient + 1 }
    | [] => l
  | .toHost =>
    match l.forHost with
    | frame :: _ => { l with host := act hostEnv l.host (.frame frame), toHost := l.toHost + 1 }
    | [] => l

end Link

/-! ## Queues -/

/-- What is to be done about an event; nothing for the events that the machine itself queues. -/
def BmDfuEvent.token (evt : BmDfuEvent) : Option (BmDfuEvtType × Option (List UInt8)) :=
  if evt.type = .none then none else some (evt.type, evt.buf.map (·.bytes))

def tokens (queue : List BmDfuEvent) : List (BmDfuEvtType × Option (List UInt8)) :=
  queue.filterMap (·.token)

/-- The event of a frame that is on its way. -/
def frameToken (frame : List UInt8) : BmDfuEvtType × Option (List UInt8) :=
  ((frameEvent (frame.headD 0)).getD .none, some frame)

/-- What a node has to do: the events in its queue and the frames on their way to it. -/
def inbox (w : World) (frames : List (List UInt8)) : List (BmDfuEvtType × Option (List UInt8)) :=
  tokens w.queue ++ frames.map frameToken

theorem tokens_append (q q' : List BmDfuEvent) : tokens (q ++ q') = tokens q ++ tokens q' :=
  List.filterMap_append

/-- The rest of the node is as before. -/
structure Still (w u : World) : Prop where
  core : u.core = { w.core with currentEvent := u.core.currentEvent }
  host : u.host = w.host
  client : u.client = w.client
  flash : u.flash = w.flash
  sent : u.sent = w.sent

section Nodes
variable {env : Env} {w u : World} {evt : BmDfuEvent} {rest : List BmDfuEvent} {frame : List UInt8}

theorem released_flash (evt : BmDfuEvent) (w : World) : (w.released evt).flash = w.flash := by
  unfold World.released
  split <;> rfl

theorem released_sent (evt : BmDfuEvent) (w : World) : (w.released evt).sent = w.sent := by
  unfold World.released
  split <;> rfl

/-- An event that the current state does nothing about. -/
theorem turn_still (hqueue : w.queue = evt :: rest) (hpending : w.core.pendingStateChange = false)
    (hrun : ((w.withQueue rest).withEvent evt) = (w.withQueue rest).afterRun env evt) :
    Still w (act env w .turn) ∧ (act env w .turn).queue = rest := by
  have hconsume : consume env evt (w.withQueue rest) = (w.withQueue rest).withEvent evt :=
    consume_stays hrun.symm hpending
  rw [turn_eq hqueue hconsume]
  refine ⟨⟨?_, by simp [World.withEvent], by simp [World.withEvent], ?_, ?_⟩,
    by simp [World.withEvent]⟩
  · simp [World.withEvent]
  · rw [released_flash]
    rfl
  · rw [released_sent]
    rfl

/-- A frame for the node from its peer is queued. -/
theorem deliver_still (hmalloc : ∀ n, env.malloc n = true)
    (hdst : dstNodeId env.beyond frame = w.core.selfNodeId)
    (hvalid : validPacket (srcNodeId env.beyond frame) w = true)
    (htype : frameEvent (frameType env.beyond frame) ≠ none) (hroom : w.queue.length < 5) :
    Still w (act env w (.frame frame)) ∧
      ∃ evt, (act env w (.frame frame)).queue = w.queue ++ [evt] ∧
        some evt.type = frameEvent (frameType env.beyond frame) ∧
        evt.buf.map (·.bytes) = some frame := by
  obtain ⟨type, htype⟩ := Option.ne_none_iff_exists'.mp htype
  have hact : act env w (.frame frame) = (w.emit (.malloc true)).withQueue
      (w.queue ++ [{ type, buf := some { ptr := w.log.length + 1, bytes := frame } }]) := by
    simp only [act, dfuCopyAndProcessMessage, hdst, if_true, bmMalloc, hmalloc, bmDfuProcessMessage,
      htype]
    rw [if_neg (by simp), if_neg]
    · simp [bmQueueSend, hroom]
    · have hvalid' : validPacket (srcNodeId env.beyond frame) (w.emit (.malloc true)) =
          true := hvalid
      simp [hvalid']
  rw [hact]
  exact ⟨⟨rfl, rfl, rfl, rfl, rfl⟩, _, rfl, htype.symm, rfl⟩

end Nodes

/-! ## The upload -/

/-- The number of chunks of an image. -/
def chunkCount (image : List UInt8) (chunkSize : Nat) : Nat :=
  (image.length + chunkSize - 1) / chunkSize

/-- The chunk with the number `k`. -/
def chunkAt (image : List UInt8) (chunkSize k : Nat) : List UInt8 :=
  (image.drop (k * chunkSize)).take chunkSize

/-- An image that the host can supply and the client wants and can hold. -/
structure Upload (hostEnv clientEnv : Env) (info : BmDfuImgInfo) (image : List UInt8) : Prop where
  host : Succeeds hostEnv
  client : Succeeds clientEnv
  size : image.length = info.imageSize.toNat
  nonempty : 0 < image.length
  chunkSize : 1 ≤ info.chunkSize.toNat ∧ info.chunkSize.toNat ≤ bmDfuMaxChunkSize
  count : chunkCount image info.chunkSize.toNat ≤ 65535
  source : ∀ call off len, off + len ≤ image.length →
    hostEnv.hostGetChunk call (dfuImgStartOffsetBytes + off) len = (.ok, (image.drop off).take len)
  crc16 : info.crc16 = crc16Ccitt 0 image
  wanted : wantsUpdate clientEnv info = true
  fits : info.imageSize < clientEnv.flashAreaSize

/-- The host in the state `state`, having sent `sent` chunks. -/
structure HostAt (info : BmDfuImgInfo) (hostId clientId : UInt64) (state : BmDfuState) (sent : Nat)
    (w : World) : Prop where
  currentState : w.core.currentState = state
  pending : w.core.pendingStateChange = false
  coreId : w.core.selfNodeId = hostId
  hostId : w.host.selfNodeId = hostId
  clientId : w.host.clientNodeId = clientId
  imgInfo : w.host.imgInfo = info
  internal : w.core.internal = true
  remaining : w.host.bytesRemaining = info.imageSize.toNat - sent * info.chunkSize.toNat

/-- The client that has taken `count` chunks. -/
structure ClientAt (info : BmDfuImgInfo) (image : List UInt8) (hostId clientId : UInt64)
    (count : Nat)
    (w : World) : Prop where
  currentState : w.core.currentState = .clientReceiving
  pending : w.core.pendingStateChange = false
  coreId : w.core.selfNodeId = clientId
  hostId : w.client.hostNodeId = hostId
  numChunks : w.client.numChunks = chunkCount image info.chunkSize.toNat
  currentChunk : w.client.currentChunk = count
  receiving : Receiving info (image.take (count * info.chunkSize.toNat)) w.client w.flash

section Steps
variable {hostEnv clientEnv env : Env} {info : BmDfuImgInfo} {image : List UInt8}
  {hostId clientId : UInt64} {state : BmDfuState} {n : Nat} {w u : World} {evt : BmDfuEvent}
  {rest : List BmDfuEvent}

theorem HostAt.still (h : HostAt info hostId clientId state n w) (hstill : Still w u) :
    HostAt info hostId clientId state n u := by
  obtain ⟨hstate, hpending, hcore, hself, hclient, hinfo, hinternal, hremaining⟩ := h
  have hu := hstill.core
  refine ⟨?_, ?_, ?_, ?_, ?_, ?_, ?_, ?_⟩
  · rw [hu]; exact hstate
  · rw [hu]; exact hpending
  · rw [hu]; exact hcore
  · rw [hstill.host]; exact hself
  · rw [hstill.host]; exact hclient
  · rw [hstill.host]; exact hinfo
  · rw [hu]; exact hinternal
  · rw [hstill.host]; exact hremaining

theorem ClientAt.still (h : ClientAt info image hostId clientId n w) (hstill : Still w u) :
    ClientAt info image hostId clientId n u := by
  obtain ⟨hstate, hpending, hcore, hhost, hnum, hcurrent, hreceiving⟩ := h
  have hu := hstill.core
  refine ⟨?_, ?_, ?_, ?_, ?_, ?_, ?_⟩
  · rw [hu]; exact hstate
  · rw [hu]; exact hpending
  · rw [hu]; exact hcore
  · rw [hstill.client]; exact hhost
  · rw [hstill.client]; exact hnum
  · rw [hstill.client]; exact hcurrent
  · rw [hstill.client, hstill.flash]; exact hreceiving

theorem setPending_queue (hroom : w.queue.length < 5) (s : BmDfuState) :
    (bmDfuSetPendingStateChange s w).queue = w.queue ++ [{ type := .none }] := by
  have hroom' : (w.withCore { w.core with pendingStateChange := true, newState := s }).queue.length
      < 5 :=
    hroom
  simp only [bmDfuSetPendingStateChange, bmDfuSendNopEvent, bmQueueSend, if_pos hroom']
  rfl

theorem setPending_sent (s : BmDfuState) : (bmDfuSetPendingStateChange s w).sent = w.sent := by
  rw [World.sent, setPending_log]
  rfl

/-- `s_host_req_update_entry` -/
theorem reqUpdateEntry_eq {buf : BmDfuBuf} (henv : Succeeds env)
    (hbuf : w.core.currentEvent.buf = some buf)
    (hinternal : w.core.internal = true) :
    (sHostReqUpdateEntry env w).2 =
      ((w.withHost { w.host with
        imgInfo := imgInfo env.beyond buf.bytes
        bytesRemaining := (imgInfo env.beyond buf.bytes).imageSize.toNat
        clientNodeId := dstNodeId env.beyond buf.bytes
        ackRetryNum := 0 }).emit
        (.tx (startFrame w.host.selfNodeId (dstNodeId env.beyond buf.bytes)
          (imgInfo env.beyond buf.bytes)) .ok)).emit (.timerStart .ack .ok) := by
  simp [sHostReqUpdateEntry, bmDfuGetCurrentEvent, hbuf, bmDfuInternal, hinternal, henv.bcmpTx,
    henv.timerStart]

/-- The host asks the client to begin. -/
theorem host_begin {buf : BmDfuBuf} (henv : Succeeds env) (hstate : w.core.currentState = .idle)
    (hcore : w.core.selfNodeId = hostId) (hhost : w.host.selfNodeId = hostId)
    (hinternal : w.core.internal = true) (hqueue : w.queue = evt :: rest)
    (hevt : evt = { type := .beginHost, buf := some buf })
    (hbuf : buf.bytes = startFrame hostId clientId info) (hroom : rest.length < 5) :
    HostAt info hostId clientId .hostReqUpdate 0 (act env w .turn) ∧
      (act env w .turn).queue = rest ++ [{ type := .none }] ∧
      (act env w .turn).sent = w.sent ++ [startFrame hostId clientId info] := by
  have hafter : (w.withQueue rest).afterRun env evt =
      (sIdleRun env ((w.withQueue rest).withEvent evt)).2 := by
    simp only [World.afterRun, withQueue_core, hstate, dfuStates]
  rw [idleRun_beginHost (by rw [hevt]; rfl)] at hafter
  have hconsume := consume_moves .idle .hostReqUpdate hafter (by simp)
    (by simpa [World.withEvent, bmDfuHostSetParams] using hstate) (by simp) (by simp) (by simp)
  generalize hx : World.entering .hostReqUpdate _ = x at hconsume
  have hcurrent : x.core.currentEvent.buf = some buf := by
    rw [← hx, hevt]
    simp [World.entering, World.withEvent, bmDfuHostSetParams]
  have hxInternal : x.core.internal = true := by
    rw [← hx]
    simpa [World.entering, World.withEvent, bmDfuHostSetParams] using hinternal
  have hfields : x.core.pendingStateChange = false ∧ x.core.currentState = .hostReqUpdate ∧
      x.core.selfNodeId = hostId ∧ x.host.selfNodeId = hostId ∧ x.log = w.log := by
    rw [← hx]
    simp [World.entering, World.withEvent, bmDfuHostSetParams, hcore, hhost]
  have hxQueue : x.queue = rest ++ [{ type := .none }] := by
    rw [← hx]
    exact setPending_queue hroom .hostReqUpdate
  obtain ⟨hpending, hstate', hcore', hhost', hlog⟩ := hfields
  have hentry : consume env evt (w.withQueue rest) = _ :=
    hconsume.trans (reqUpdateEntry_eq henv hcurrent hxInternal)
  rw [turn_eq hqueue hentry]
  have hinfo : imgInfo env.beyond buf.bytes = info := by rw [hbuf, imgInfo_startFrame]
  have hdst : dstNodeId env.beyond buf.bytes = clientId := by
    rw [hbuf, startFrame, dstNodeId_header]
  rw [hinfo, hdst, hhost']
  refine ⟨⟨?_, ?_, ?_, ?_, ?_, ?_, ?_, ?_⟩, ?_, ?_⟩
  · simpa using hstate'
  · simpa using hpending
  · simpa using hcore'
  · simpa using hhost'
  · simp
  · simp
  · simpa using hxInternal
  · simp
  · simpa using hxQueue
  · rw [released_sent, sent_of_log [.timerStart .ack .ok, .tx (startFrame hostId clientId info) .ok]
      (by simpa using hlog)]
    rfl

/-- The client has accepted. -/
theorem host_ack {buf : BmDfuBuf} (henv : Succeeds env)
    (h : HostAt info hostId clientId .hostReqUpdate n w) (hqueue : w.queue = evt :: rest)
    (hevt : evt = { type := .ackReceived, buf := some buf })
    (hbuf : buf.bytes = resultFrame bcmpDFUAckMessage clientId hostId 1 .none)
    (hroom : rest.length < 5) :
    HostAt info hostId clientId .hostUpdate n (act env w .turn) ∧
      (act env w .turn).queue = rest ++ [{ type := .none }] ∧ (act env w .turn).sent = w.sent := by
  have hsuccess : resultSuccess env.beyond buf.bytes ≠ 0 := by
    rw [hbuf, resultSuccess_resultFrame]
    decide
  have hafter : (w.withQueue rest).afterRun env evt = bmDfuSetPendingStateChange .hostUpdate
      (((w.withQueue rest).withEvent evt).emit (.timerStop .ack .ok)) := by
    simp [World.afterRun, h.currentState, dfuStates, sHostReqUpdateRun, bmDfuGetCurrentEvent,
      World.withEvent, hevt, henv.timerStop, hsuccess]
  have hconsume := consume_moves .hostReqUpdate .hostUpdate hafter (by simp)
    (by simpa [World.withEvent] using h.currentState) (by simp) (by simp) (by simp)
  have hentry : ∀ x : World, (sHostUpdateEntry env x).2 = ((x.emit (.timerStop .update .ok)).emit
      (.timerChangePeriod .update .ok)).emit (.timerStart .update .ok) := by
    intro x
    simp [sHostUpdateEntry, bmDfuHostStartUpdateTimer, henv.timerStop, bmTimerChangePeriod,
      henv.timerChangePeriod, henv.timerStart]
  rw [turn_eq hqueue (hconsume.trans (hentry _))]
  refine ⟨⟨?_, ?_, ?_, ?_, ?_, ?_, ?_, ?_⟩, ?_, ?_⟩
  · simp [World.entering]
  · simp [World.entering]
  · simpa [World.entering, World.withEvent] using h.coreId
  · simpa [World.entering, World.withEvent] using h.hostId
  · simpa [World.entering, World.withEvent] using h.clientId
  · simpa [World.entering, World.withEvent] using h.imgInfo
  · simpa [World.entering, World.withEvent] using h.internal
  · simpa [World.entering, World.withEvent] using h.remaining
  · rw [released_queue]
    exact setPending_queue hroom .hostUpdate
  · rw [released_sent, sent_of_log (w := w) [.timerStart .update .ok,
      .timerChangePeriod .update .ok,
      .timerStop .update .ok, .timerStop .ack .ok] (by simp [World.entering, World.withEvent])]
    exact List.append_nil _

/-! ### A chunk -/

theorem chunkAt_length (image : List UInt8) (c k : Nat) :
    (chunkAt image c k).length = min c (image.length - k * c) := by
  simp [chunkAt]

theorem lt_chunkCount {c k : Nat} (hc : 1 ≤ c) : k < chunkCount image c ↔ k * c < image.length := by
  rw [chunkCount, Nat.lt_iff_add_one_le, Nat.le_div_iff_mul_le hc, Nat.add_mul, Nat.one_mul]
  omega

theorem Upload.length_lt (hup : Upload hostEnv clientEnv info image) : image.length < 2 ^ 26 := by
  have hlast : ¬chunkCount image info.chunkSize.toNat < chunkCount image info.chunkSize.toNat :=
    Nat.lt_irrefl _
  rw [lt_chunkCount hup.chunkSize.1] at hlast
  have hmul : chunkCount image info.chunkSize.toNat * info.chunkSize.toNat ≤ 65535 * 1024 :=
    Nat.mul_le_mul hup.count hup.chunkSize.2
  omega

theorem chunkPayloadLen_eq (hup : Upload hostEnv clientEnv info image)
    (h : HostAt info hostId clientId state n w) :
    chunkPayloadLen w.host = (chunkAt image info.chunkSize.toNat n).length := by
  rw [chunkPayloadLen, h.imgInfo, h.remaining, chunkAt_length, hup.size]
  split <;> omega

/-- What the host does for a chunk. -/
theorem sendChunk_eq (hup : Upload env clientEnv info image)
    (h : HostAt info hostId clientId state n w) (hn : n < chunkCount image info.chunkSize.toNat)
    (req : List UInt8) :
    let chunk := chunkAt image info.chunkSize.toNat n
    (bmDfuHostSendChunk env req w).2 = bmFree (w.log.length + 1) (((((w.emit (.malloc true)).emit
      (.hostGetChunk (dfuImgStartOffsetBytes + n * info.chunkSize.toNat) chunk.length .ok)).emit
      (.tx (payloadFrame hostId clientId chunk.length chunk) .ok)).withHost
        { w.host with bytesRemaining := w.host.bytesRemaining - chunk.length })) := by
  intro chunk
  have hlt := (lt_chunkCount hup.chunkSize.1).mp hn
  have hlength : chunk.length =
      min info.chunkSize.toNat (image.length - n * info.chunkSize.toNat) :=
    chunkAt_length ..
  have hsmall := hup.length_lt
  have hoff : (dfuImgStartOffsetBytes + w.host.imgInfo.imageSize.toNat +
    2 ^ 32 - w.host.bytesRemaining) %
      2 ^ 32 = dfuImgStartOffsetBytes + n * info.chunkSize.toNat := by
    rw [h.imgInfo, h.remaining, ← hup.size, dfuImgStartOffsetBytes]
    omega
  have hsource : env.hostGetChunk (w.log.length + 1)
    (dfuImgStartOffsetBytes + n * info.chunkSize.toNat)
      chunk.length = (.ok, chunk) := by
    rw [hup.source _ _ _ (by omega), hlength]
    congr 1
    simp only [chunk, chunkAt]
    rw [List.take_eq_take_iff]
    simp
  have hwindow : ∀ (f : Nat → UInt8) (bytes : List UInt8),
      window f bytes 0 bytes.length = bytes := by
    intro f bytes
    rw [window_eq_slice _ _ (by omega), List.drop_zero, List.take_length]
  simp only [bmDfuHostSendChunk, bmMalloc_fst, hup.host.malloc, not_true_eq_false, if_false,
    chunkPayloadLen_eq hup h, fillChunk]
  have hinternal : bmDfuInternal (w.emit (.malloc true)) = true := h.internal
  simp only [bmMalloc_snd, hup.host.malloc, hinternal, if_true, emit_host, hoff, emit_log,
    List.length_cons, chunk, hsource]
  simp only [ne_eq, not_true_eq_false, if_false, bcmpTx_fst, bcmpTx_snd, hup.host.bcmpTx, if_true,
    hwindow, h.hostId, h.clientId, emit_host]

/-- The host sends the next chunk. -/
theorem host_request {buf : BmDfuBuf} (hup : Upload env clientEnv info image)
    (h : HostAt info hostId clientId .hostUpdate n w)
    (hn : n < chunkCount image info.chunkSize.toNat)
    (hqueue : w.queue = evt :: rest) (hevt : evt = { type := .chunkRequest, buf := some buf }) :
    HostAt info hostId clientId .hostUpdate (n + 1) (act env w .turn) ∧
      (act env w .turn).queue = rest ∧
      (act env w .turn).sent = w.sent ++ [payloadFrame hostId clientId
        (chunkAt image info.chunkSize.toNat n).length (chunkAt image info.chunkSize.toNat n)] := by
  let v := ((w.withQueue rest).withEvent evt).emit (.timerStart .heartbeat .ok)
  have hv : HostAt info hostId clientId .hostUpdate n v :=
    ⟨h.currentState, h.pending, h.coreId, h.hostId, h.clientId, h.imgInfo, h.internal, h.remaining⟩
  have hafter : (w.withQueue rest).afterRun env evt =
      (bmDfuHostSendChunk env buf.bytes v).2.emit (.timerStop .heartbeat .ok) := by
    simp [World.afterRun, h.currentState, dfuStates, sHostUpdateRun, bmDfuGetCurrentEvent,
      World.withEvent, hevt, hup.host.timerStart, hup.host.timerStop, hostTimerErrCheck, v]
  rw [sendChunk_eq hup hv hn] at hafter
  have hconsume := consume_stays hafter (by simpa [bmFree] using hv.pending)
  rw [turn_eq hqueue hconsume]
  refine ⟨⟨?_, ?_, ?_, ?_, ?_, ?_, ?_, ?_⟩, ?_, ?_⟩
  · simpa [bmFree] using hv.currentState
  · simpa [bmFree] using hv.pending
  · simpa [bmFree] using hv.coreId
  · simpa [bmFree] using hv.hostId
  · simpa [bmFree] using hv.clientId
  · simpa [bmFree] using hv.imgInfo
  · simpa [bmFree] using hv.internal
  · have hremaining := hv.remaining
    simp only [released_host, emit_host, bmFree, withHost_host, hremaining, chunkAt_length,
      ← hup.size,
      Nat.add_mul]
    omega
  · rw [released_queue]
    rfl
  · rw [released_sent, sent_of_log (w := w) [.timerStop .heartbeat .ok, .free (v.log.length + 1),
      .tx (payloadFrame hostId clientId (chunkAt image info.chunkSize.toNat n).length
        (chunkAt image info.chunkSize.toNat n)) .ok,
      .hostGetChunk (dfuImgStartOffsetBytes + n * info.chunkSize.toNat)
        (chunkAt image info.chunkSize.toNat n).length .ok, .malloc true, .timerStart .heartbeat .ok]
      (by simp [bmFree, v, World.withEvent])]
    rfl

/-! ### The client -/

theorem numChunksOf_eq (hup : Upload hostEnv clientEnv info image) :
    numChunksOf info = chunkCount image info.chunkSize.toNat := by
  have hc := hup.chunkSize.1
  have hcount := hup.count
  have hceil : (if image.length % info.chunkSize.toNat ≠
    0 then image.length / info.chunkSize.toNat + 1
      else image.length / info.chunkSize.toNat) = chunkCount image info.chunkSize.toNat := by
    generalize info.chunkSize.toNat = c at hc
    have hsum : image.length + c - 1 = c * (image.length / c) + (image.length % c + c - 1) := by
      have hdiv := Nat.div_add_mod image.length c
      omega
    have hmod := Nat.mod_lt image.length hc
    rw [chunkCount, hsum, Nat.mul_add_div hc]
    split
    · rename_i hrest
      have hone : (image.length % c + c - 1) / c = 1 := Nat.div_eq_of_lt_le (by omega) (by omega)
      rw [hone]
    · rename_i hrest
      have hzero : (image.length % c + c - 1) / c = 0 := Nat.div_eq_of_lt (by omega)
      rw [hzero, Nat.add_zero]
  rw [numChunksOf, ← hup.size, hceil]
  exact Nat.mod_eq_of_lt (by omega)

/-- What the client does about the Start frame. -/
theorem processUpdateRequest_eq {buf : BmDfuBuf} (hup : Upload hostEnv env info image)
    (hbuf : w.core.currentEvent.buf = some buf)
    (hbytes : buf.bytes = startFrame hostId clientId info) :
    bmDfuClientProcessUpdateRequest env w = bmDfuSetPendingStateChange .clientReceiving
      ((((((w.withClient { w.client with
        hostNodeId := hostId, imageSize := info.imageSize.toNat, numChunks := numChunksOf info,
        crc16 := info.crc16 }).emit (.flashAreaOpen .ok)).withFlash
        (flashAfterErase .ok w.flash 0 env.flashAreaSize.toNat)).emit
        (.flashAreaErase 0 env.flashAreaSize.toNat .ok)).emit
        (.tx (resultFrame bcmpDFUAckMessage w.core.selfNodeId hostId 1 .none) .ok)).withRebootInfo
        { magic := dfuRebootMagic, major := info.majorVer, minor := info.minorVer, hostNodeId :=
        hostId,
          gitSHA := info.gitSHA }) := by
  have hinfo : imgInfo env.beyond buf.bytes = info := by rw [hbytes, imgInfo_startFrame]
  have hsrc : srcNodeId env.beyond buf.bytes = hostId := by
    rw [hbytes, startFrame, srcNodeId_header]
  have hchunk : info.chunkSize ≠ 0 := by
    intro hzero
    have hpos := hup.chunkSize.1
    rw [hzero] at hpos
    simp at hpos
  have hsmall : ¬info.chunkSize.toNat > bmDfuMaxChunkSize := Nat.not_lt.mpr hup.chunkSize.2
  simp only [bmDfuClientProcessUpdateRequest, bmDfuGetCurrentEvent, hbuf, hinfo, hsrc, hup.wanted,
    if_true, hsmall, if_false, clientTakeStart, recordDivision, hchunk, flashAreaOpen_fst,
    hup.client.flashAreaOpen, ne_eq, not_true_eq_false, clientPrepareSlot, gt_iff_lt, hup.fits,
    flashAreaErase_fst, hup.client.flashAreaErase, flashAreaOpen_snd, flashAreaErase_snd,
    bmDfuSendAck_eq, hup.client.bcmpTx]
  rfl

/-- The client begins. -/
theorem client_start {buf : BmDfuBuf} (hup : Upload hostEnv env info image)
    (hstate : w.core.currentState = .idle) (hcore : w.core.selfNodeId = clientId)
    (hqueue : w.queue = evt :: rest)
    (hevt : evt = { type := .receivedUpdateRequest, buf := some buf })
    (hbytes : buf.bytes = startFrame hostId clientId info) (hroom : rest.length < 5) :
    ClientAt info image hostId clientId 0 (act env w .turn) ∧
      (act env w .turn).queue = rest ++ [{ type := .none }] ∧
      (act env w .turn).sent = w.sent ++ [resultFrame bcmpDFUAckMessage clientId hostId 1 .none,
        payloadReqFrame clientId hostId 0] := by
  have hafter : (w.withQueue rest).afterRun env evt =
      bmDfuClientProcessUpdateRequest env ((w.withQueue rest).withEvent evt) := by
    simp [World.afterRun, hstate, dfuStates, sIdleRun, World.withEvent, hevt]
  rw [processUpdateRequest_eq hup (by rw [hevt]; rfl) hbytes] at hafter
  have hconsume := consume_moves .idle .clientReceiving hafter (by simp)
    (by simpa [World.withEvent] using hstate) (by simp) (by simp) (by simp)
  have hentry : ∀ x : World, (sClientReceivingEntry env x).2 =
      ((x.withClient x.client.restart).emit
        (.tx (payloadReqFrame x.core.selfNodeId x.client.hostNodeId 0) .ok)).emit
        (.timerStart .chunk .ok) := by
    intro x
    simp [sClientReceivingEntry, hup.client.bcmpTx, hup.client.timerStart, DfuClientCtx.restart]
  rw [turn_eq hqueue (hconsume.trans (hentry _))]
  refine ⟨⟨?_, ?_, ?_, ?_, ?_, ?_, ?_⟩, ?_, ?_⟩
  · simp [World.entering]
  · simp [World.entering]
  · simpa [World.entering, World.withEvent] using hcore
  · simp [World.entering, DfuClientCtx.restart]
  · simp [World.entering, DfuClientCtx.restart, numChunksOf_eq hup]
  · simp [World.entering, DfuClientCtx.restart]
  · rw [Nat.zero_mul, List.take_zero, released_client]
    refine Receiving.restart ?_ ?_ ?_
    · simp [World.entering]
    · simp [World.entering]
    · have hcount := hup.count
      simp only [World.entering, withCore_client, setPending_client, withRebootInfo_client,
        emit_client,
        withFlash_client, withClient_client, numChunksOf_eq hup]
      omega
  · rw [released_queue]
    exact setPending_queue hroom .clientReceiving
  · rw [released_sent, sent_of_log (w := w) [.timerStart .chunk .ok,
      .tx (payloadReqFrame clientId hostId 0) .ok,
      .tx (resultFrame bcmpDFUAckMessage clientId hostId 1 .none) .ok,
      .flashAreaErase 0 env.flashAreaSize.toNat .ok, .flashAreaOpen .ok]
      (by simp [World.entering, World.withEvent, hcore])]
    rfl

/-- The client has counted a chunk. -/
def counted (w : World) : World :=
  w.withClient { w.client with
    currentChunk := (w.client.currentChunk + 1) % 2 ^ 16, chunkRetryNum := 0 }

theorem nextChunk_asks (henv : Succeeds env)
    (h : (counted w).client.currentChunk < w.client.numChunks) :
    (clientNextChunk env w).2 = ((counted w).emit (.tx (payloadReqFrame w.core.selfNodeId
      w.client.hostNodeId (counted w).client.currentChunk) .ok)).emit (.timerStart .chunk .ok) := by
  have h' : (w.client.currentChunk + 1) % 2 ^ 16 < w.client.numChunks := h
  rw [clientNextChunk]
  simp only [withClient_client, h', if_true, clientTimerErrCheck, bmTimerStart_fst, henv.timerStart,
    ne_eq, not_true_eq_false, if_false, bmTimerStart_snd, bmDfuReqNextChunk_eq, henv.bcmpTx]
  rfl

theorem nextChunk_ends (h : ¬(counted w).client.currentChunk < w.client.numChunks)
    (hend : (bmDfuProcessEnd env (counted w)).1 = false) :
    (clientNextChunk env w).2 =
      bmDfuSetPendingStateChange .clientValidating (bmDfuProcessEnd env (counted w)).2 := by
  have h' : ¬(w.client.currentChunk + 1) % 2 ^ 16 < w.client.numChunks := h
  rw [clientNextChunk]
  simp only [withClient_client, h', if_false]
  change (if (bmDfuProcessEnd env (counted w)).1 = true then _ else _ : BmErr × World).2 = _
  rw [if_neg (by simp [hend])]
  rfl

theorem take_chunk (image : List UInt8) (c k : Nat) :
    image.take (k * c) ++ chunkAt image c k = image.take ((k + 1) * c) := by
  rw [chunkAt, ← List.take_add, Nat.add_mul, Nat.one_mul]

/-- The payload of a chunk has been stored, and is not yet counted. -/
structure Stored (info : BmDfuImgInfo) (image : List UInt8) (hostId clientId : UInt64) (n : Nat)
    (w x : World) : Prop where
  state : x.core.currentState = .clientReceiving ∧ x.core.pendingStateChange = false
  coreId : x.core.selfNodeId = clientId
  hostId : x.client.hostNodeId = hostId
  numChunks : x.client.numChunks = chunkCount image info.chunkSize.toNat
  currentChunk : x.client.currentChunk = n
  paged : Paged x.client x.flash (image.take ((n + 1) * info.chunkSize.toNat))
  sent : x.sent = w.sent

/-- The client takes the next chunk. -/
theorem receivingRun_stored {buf : BmDfuBuf} (rest : List BmDfuEvent)
    (hup : Upload hostEnv env info image)
    (h : ClientAt info image hostId clientId n w) (hn : n < chunkCount image info.chunkSize.toNat)
    (hevt : evt = { type := .imageChunk, buf := some buf })
    (hbytes : buf.bytes = payloadFrame hostId clientId
      (chunkAt image info.chunkSize.toNat n).length (chunkAt image info.chunkSize.toNat n)) :
    ∃ x, (w.withQueue rest).afterRun env evt = (clientNextChunk env x).2 ∧ x.queue = rest ∧
      Stored info image hostId clientId n w x ∧
      Received info (image.take ((n + 1) * info.chunkSize.toNat)) (clientNextChunk env x).2 := by
  generalize hchunk : chunkAt image info.chunkSize.toNat n = chunk at hbytes
  have hpos : 0 < chunk.length := by
    have hlt := (lt_chunkCount hup.chunkSize.1).mp hn
    have hsize := hup.chunkSize.1
    rw [← hchunk, chunkAt_length]
    omega
  have hle : chunk.length ≤ bmDfuMaxChunkSize := by
    have hsize := hup.chunkSize.2
    rw [← hchunk, chunkAt_length]
    omega
  have hlength : payloadLength env.beyond buf.bytes = chunk.length := by
    rw [hbytes]
    refine payloadLength_payloadFrame _ _ _ ?_ _
    rw [bmDfuMaxChunkSize] at hle
    omega
  have hpayload : payloadBuf env.beyond buf.bytes chunk.length = chunk := by
    rw [hbytes, payloadBuf_payloadFrame]
  let v := ((w.withQueue rest).withEvent evt).emit (.timerStop .chunk .ok)
  have hafter : (w.withQueue rest).afterRun env evt = (clientAcceptChunk env chunk v).2 := by
    simp only [World.afterRun, withQueue_core, h.currentState, dfuStates]
    rw [receivingRun_imageChunk (by rw [hevt]; rfl), hlength, if_neg (Nat.not_lt.mpr hle),
      if_neg (by simp [hup.client.timerStop]), hpayload]
    simp [v, hup.client.timerStop]
  let y := v.withClient { v.client with
    chunkLength := chunk.length
    runningCrc16 := crc16Ccitt v.client.runningCrc16 chunk }
  have hlt : (image.take (n * info.chunkSize.toNat)).length + chunk.length < 2 ^ 32 := by
    have himage := hup.length_lt
    have htake := List.length_take_le' (n * info.chunkSize.toNat) image
    rw [bmDfuMaxChunkSize] at hle
    omega
  have hpagedy : Paged y.client y.flash (image.take (n * info.chunkSize.toNat)) :=
    ⟨h.receiving.paged.bytes, h.receiving.paged.counter⟩
  obtain ⟨hok, hpaged⟩ := bmDfuProcessPayload_paged hup.client.flashAreaWrite hpagedy hle hlt
  have hframe := bmDfuProcessPayload_frame env chunk y
  have haccept : (clientAcceptChunk env chunk v).2 =
      (clientNextChunk env (bmDfuProcessPayload env chunk y).2).2 := by
    rw [clientAcceptChunk]
    change (clientNextChunk env (if (bmDfuProcessPayload env chunk y).1 then _ else
      (bmDfuProcessPayload env chunk y).2)).2 = _
    rw [hok, beq_false_of_ne (Nat.ne_of_gt hpos), if_neg Bool.false_ne_true]
  have hreceived : Received info (image.take (n * info.chunkSize.toNat) ++ chunk)
      (clientAcceptChunk env chunk v).2 :=
    clientAcceptChunk_received hup.client.flashAreaWrite h.receiving h.pending hle
  rw [← hchunk, take_chunk] at hreceived hpaged
  refine ⟨(bmDfuProcessPayload env chunk y).2, hafter.trans haccept, hframe.queue,
    ⟨?_, ?_, ?_, ?_, ?_, ?_, ?_⟩, ?_⟩
  · rw [hframe.core]
    exact ⟨h.currentState, h.pending⟩
  · rw [hframe.core]
    exact h.coreId
  · rw [hframe.hostNodeId]
    exact h.hostId
  · rw [hframe.numChunks]
    exact h.numChunks
  · rw [hframe.currentChunk]
    exact h.currentChunk
  · rw [← hchunk]
    exact hpaged
  · refine sent_of_seen ?_
    rw [bmDfuProcessPayload_seen (fun _ _ _ => rfl)]
    rfl
  · rw [← haccept, ← hchunk]
    exact hreceived

/-- The client asks for the next chunk. -/
theorem client_chunk {buf : BmDfuBuf} (hup : Upload hostEnv env info image)
    (h : ClientAt info image hostId clientId n w)
    (hn : n + 1 < chunkCount image info.chunkSize.toNat) (hqueue : w.queue = evt :: rest)
    (hevt : evt = { type := .imageChunk, buf := some buf })
    (hbytes : buf.bytes = payloadFrame hostId clientId
      (chunkAt image info.chunkSize.toNat n).length (chunkAt image info.chunkSize.toNat n)) :
    ClientAt info image hostId clientId (n + 1) (act env w .turn) ∧ (act env w .turn).queue = rest ∧
      (act env w .turn).sent = w.sent ++ [payloadReqFrame clientId hostId (n + 1)] := by
  obtain ⟨x, hafter, hxqueue, hx, hreceived⟩ :=
    receivingRun_stored rest hup h (Nat.lt_of_succ_lt hn) hevt hbytes
  have hcount := hup.count
  have hcurrent : (counted x).client.currentChunk = n + 1 := by
    simp only [counted, withClient_client, hx.currentChunk]
    omega
  have hnext := nextChunk_asks hup.client (w := x) (by rw [hcurrent, hx.numChunks]; exact hn)
  rw [hcurrent, hx.coreId, hx.hostId] at hnext
  have hpending : (clientNextChunk env x).2.core.pendingStateChange = false := by
    rw [hnext]
    exact hx.state.2
  have hreceiving := hreceived.staying hpending
  rw [turn_eq hqueue (consume_stays hafter hpending)]
  rw [hnext] at hreceiving ⊢
  refine ⟨⟨?_, ?_, ?_, ?_, ?_, ?_, ?_⟩, ?_, ?_⟩
  · simpa [counted] using hx.state.1
  · simpa [counted] using hx.state.2
  · simpa [counted] using hx.coreId
  · simpa [counted] using hx.hostId
  · simpa [counted] using hx.numChunks
  · simpa using hcurrent
  · rw [released_client, released_flash]
    exact hreceiving
  · simpa [counted] using hxqueue
  · rw [released_sent, sent_of_log (w := x) [.timerStart .chunk .ok,
      .tx (payloadReqFrame clientId hostId (n + 1)) .ok] (by simp [counted]), hx.sent]
    rfl

/-- The client that has everything in flash and asks for the reboot next. -/
structure ClientDone (info : BmDfuImgInfo) (image : List UInt8) (w : World) : Prop where
  currentState : w.core.currentState = .clientValidating
  pending : w.core.pendingStateChange = true
  newState : w.core.newState = .clientRebootReq
  flash : peek w.flash 0 image.length = image

theorem Flashed.offset {acc : List UInt8} {c : DfuClientCtx} {flash : Nat → UInt8}
    (h : Flashed info acc c flash) : c.imgFlashOffset = acc.length := by
  rw [← h.flash, peek_length]

/-- The image of the upload is valid. -/
theorem validatingEntry_passes (hup : Upload hostEnv env info image)
    (h : Flashed info image w.client w.flash) :
    (sClientValidatingEntry env w).2 = bmDfuSetPendingStateChange .clientRebootReq w := by
  have hsize : w.client.imageSize = w.client.imgFlashOffset := by
    rw [h.imageSize, h.offset, hup.size]
  have hcrc : w.client.crc16 = w.client.runningCrc16 := by
    rw [h.crc16, h.runningCrc16, hup.crc16]
  rw [sClientValidatingEntry, if_neg (not_not.mpr hsize), if_pos hcrc]

/-- The last chunk is in flash, and the image is valid. -/
theorem client_last {buf : BmDfuBuf} (hup : Upload hostEnv env info image)
    (h : ClientAt info image hostId clientId n w)
    (hn : n + 1 = chunkCount image info.chunkSize.toNat) (hqueue : w.queue = evt :: rest)
    (hevt : evt = { type := .imageChunk, buf := some buf })
    (hbytes : buf.bytes = payloadFrame hostId clientId
      (chunkAt image info.chunkSize.toNat n).length (chunkAt image info.chunkSize.toNat n))
    (hroom : rest.length < 4) :
    ClientDone info image (act env w .turn) ∧
      (act env w .turn).queue = rest ++ [{ type := .none }] ++ [{ type := .none }] ∧
      (act env w .turn).sent = w.sent := by
  obtain ⟨x, hafter, hxqueue, hx, hreceived⟩ :=
    receivingRun_stored rest hup h (by omega) hevt hbytes
  have hcount := hup.count
  have hcurrent : (counted x).client.currentChunk = n + 1 := by
    simp only [counted, withClient_client, hx.currentChunk]
    omega
  have hwhole : image.take ((n + 1) * info.chunkSize.toNat) = image := by
    have hlast : ¬n + 1 < chunkCount image info.chunkSize.toNat := by omega
    rw [lt_chunkCount hup.chunkSize.1] at hlast
    exact List.take_of_length_le (by omega)
  have hpaged : Paged (counted x).client (counted x).flash image := by
    have hpaged := hx.paged
    rw [hwhole] at hpaged
    exact ⟨hpaged.bytes, hpaged.counter⟩
  have hlt : image.length < 2 ^ 32 := Nat.lt_of_lt_of_le hup.length_lt (by decide)
  obtain ⟨hend, -, -⟩ := bmDfuProcessEnd_paged hup.client.flashAreaWrite hpaged hlt
  have hnext := nextChunk_ends (w := x) (by rw [hcurrent, hx.numChunks]; omega) hend
  have hframe := bmDfuProcessEnd_frame env (counted x)
  have hflashed := hreceived.validating (by rw [hnext]; simp) (by rw [hnext]; simp)
  rw [hwhole, hnext, setPending_client, setPending_flash] at hflashed
  rw [hnext] at hafter
  have hcore : (bmDfuProcessEnd env (counted x)).2.core = x.core := hframe.core
  have hconsume := consume_moves .clientReceiving .clientValidating hafter (by simp)
    (by simp only [setPending_core, hcore]; exact hx.state.1) (by simp) (by simp) (by simp)
  generalize hz : World.entering .clientValidating _ = z at hconsume
  have hzflash : Flashed info image z.client z.flash := by
    rw [← hz]
    simpa [World.entering] using hflashed
  have hzqueue : z.queue = rest ++ [{ type := .none }] := by
    rw [← hz, ← hxqueue]
    have hyqueue : (bmDfuProcessEnd env (counted x)).2.queue = x.queue := hframe.queue
    rw [← hyqueue]
    refine setPending_queue ?_ _
    rw [hyqueue, hxqueue]
    omega
  have hzsent : z.sent = w.sent := by
    rw [← hz, ← hx.sent]
    refine (setPending_sent .clientValidating).trans (sent_of_seen ?_)
    rw [bmDfuProcessEnd_seen (fun _ _ _ => rfl) env _ rfl]
    rfl
  have hentry := validatingEntry_passes hup hzflash
  rw [turn_eq hqueue (hconsume.trans hentry)]
  refine ⟨⟨?_, by simp, by simp, ?_⟩, ?_, ?_⟩
  · rw [← hz]
    simp [World.entering]
  · rw [released_flash, setPending_flash]
    have hflash := hzflash.flash
    rwa [hzflash.offset] at hflash
  · rw [released_queue, setPending_queue (by rw [hzqueue]; simp; omega), hzqueue]
  · rw [released_sent, setPending_sent, hzsent]

/-- The client asks the host for the reboot. -/
theorem client_validated (env : Env) (h : ClientDone info image w)
    (hqueue : w.queue = evt :: rest) :
    (act env w .turn).core.currentState = .clientRebootReq ∧
      (act env w .turn).flash = w.flash := by
  have hafter : (w.withQueue rest).afterRun env evt = (w.withQueue rest).withEvent evt := by
    simp only [World.afterRun, withQueue_core, h.currentState, dfuStates]
    rfl
  have hconsume := consume_moves .clientValidating .clientRebootReq hafter h.pending h.currentState
    (by simp) h.newState (by simp)
  rw [turn_eq hqueue hconsume, released_core, released_flash]
  exact ⟨rfl, rfl⟩

end Steps

/-! ## The stages of the transfer -/

inductive TransferStage where
  /-- The Start frame is on its way. -/
  | starting
  /-- The Ack and the first request are on their way. -/
  | accepted
  | asking (chunk : Nat)
  | sending (chunk : Nat)
  /-- The image is valid. -/
  | done

section Stages
variable (info : BmDfuImgInfo) (image : List UInt8) (hostId clientId : UInt64)

namespace TransferStage

/-- The frames that the host has to handle. -/
def hostFrames : TransferStage → List (List UInt8)
  | accepted => [resultFrame bcmpDFUAckMessage clientId hostId 1 .none,
      payloadReqFrame clientId hostId 0]
  | asking k => [payloadReqFrame clientId hostId k]
  | starting | sending _ | done => []

def clientFrames : TransferStage → List (List UInt8)
  | starting => [startFrame hostId clientId info]
  | sending k => [payloadFrame hostId clientId (chunkAt image info.chunkSize.toNat k).length
      (chunkAt image info.chunkSize.toNat k)]
  | accepted | asking _ | done => []

/-- Events and frames for a node, with those that the machine itself has queued. -/
def hostLoad : TransferStage → Nat
  | starting => 1
  | accepted | asking _ => 3
  | sending _ | done => 2

def clientLoad : TransferStage → Nat
  | starting | accepted | asking _ => 1
  | sending _ => 2
  | done => 3

/-- The chunks that the host has sent. -/
def chunksSent : TransferStage → Nat
  | starting | accepted => 0
  | asking k => k
  | sending k => k + 1
  | done => chunkCount image info.chunkSize.toNat

/-- The events that are still to be handled. -/
def rank : TransferStage → Nat
  | starting => 2 * chunkCount image info.chunkSize.toNat + 3
  | accepted => 2 * chunkCount image info.chunkSize.toNat + 2
  | asking k => 2 * (chunkCount image info.chunkSize.toNat - k) + 1
  | sending k => 2 * (chunkCount image info.chunkSize.toNat - k)
  | done => 1

def Valid : TransferStage → Prop
  | asking k | sending k => k < chunkCount image info.chunkSize.toNat
  | starting | accepted | done => True

end TransferStage

/-- A client that waits for a Start frame. -/
structure ClientIdle (w : World) : Prop where
  currentState : w.core.currentState = .idle
  pending : w.core.pendingStateChange = false
  coreId : w.core.selfNodeId = clientId

def HostOf (stage : TransferStage) (w : World) : Prop :=
  match stage with
  | .starting | .accepted => HostAt info hostId clientId .hostReqUpdate 0 w
  | .asking k => HostAt info hostId clientId .hostUpdate k w
  | .sending k => HostAt info hostId clientId .hostUpdate (k + 1) w
  | .done => HostAt info hostId clientId .hostUpdate (chunkCount image info.chunkSize.toNat) w

def ClientOf (stage : TransferStage) (w : World) : Prop :=
  match stage with
  | .starting => ClientIdle clientId w
  | .accepted => ClientAt info image hostId clientId 0 w
  | .asking k | .sending k => ClientAt info image hostId clientId k w
  | .done => ClientDone info image w

/-- The Payload frames that have been sent since the update began. -/
def payloadsSince (base : Nat) (w : World) : Nat :=
  (w.sent.drop base).countP fun frame => frame.headD 0 == bcmpDFUPayloadMessage

/-- The state of the link in a stage of the transfer. -/
structure Link.At (base : Nat) (stage : TransferStage) (l : Link) : Prop where
  valid : stage.Valid info image
  delivered : l.toClient ≤ l.host.sent.length ∧ l.toHost ≤ l.client.sent.length
  begun : base ≤ l.host.sent.length
  host : HostOf info image hostId clientId stage l.host
  client : ClientOf info image hostId clientId stage l.client
  hostInbox : inbox l.host l.forHost = (stage.hostFrames hostId clientId).map frameToken
  clientInbox : inbox l.client l.forClient =
    (stage.clientFrames info image hostId clientId).map frameToken
  hostLoad : l.host.queue.length + l.forHost.length ≤ stage.hostLoad
  clientLoad : l.client.queue.length + l.forClient.length ≤ stage.clientLoad
  payloads : payloadsSince base l.host = stage.chunksSent info image
  last : stage = .done → l.client.queue ≠ []

end Stages

section Run
variable {hostEnv clientEnv : Env} {info : BmDfuImgInfo} {image : List UInt8}
    {hostId clientId : UInt64}
  {base : Nat} {stage : TransferStage} {l : Link} {w u : World} {evt : BmDfuEvent}
    {rest : List BmDfuEvent}
  {frame : List UInt8} {frames : List (List UInt8)}

/-! ### Frames and events -/

/-- A frame of the protocol from `src` to `dst`. -/
def Addressed (src dst : UInt64) (frame : List UInt8) : Prop :=
  ∃ type rest, frame = frameHeader type src dst ++ rest ∧ frameEvent type ≠ none

theorem hostFrames_addressed (h : frame ∈ stage.hostFrames hostId clientId) :
    Addressed clientId hostId frame := by
  cases stage with
  | accepted =>
    rcases List.mem_cons.mp h with rfl | h
    · exact ⟨_, _, rfl, by decide⟩
    · obtain rfl := List.mem_singleton.mp h
      exact ⟨_, _, rfl, by decide⟩
  | asking k =>
    obtain rfl := List.mem_singleton.mp h
    exact ⟨_, _, rfl, by decide⟩
  | starting | sending | done => simp [TransferStage.hostFrames] at h

theorem clientFrames_addressed (h : frame ∈ stage.clientFrames info image hostId clientId) :
    Addressed hostId clientId frame := by
  cases stage with
  | starting =>
    obtain rfl := List.mem_singleton.mp h
    exact ⟨_, _, rfl, by decide⟩
  | sending k =>
    obtain rfl := List.mem_singleton.mp h
    exact ⟨_, _, List.append_assoc .., by decide⟩
  | accepted | asking | done => simp [TransferStage.clientFrames] at h

theorem frameEvent_ne_none {type : UInt8} : frameEvent type ≠ some .none := by
  fun_cases frameEvent type <;> simp

/-- The frame becomes an event of the queue. -/
theorem token_of_frame {src dst : UInt64} (h : Addressed src dst frame) (beyond : Nat → UInt8)
    (htype : some evt.type = frameEvent (frameType beyond frame))
    (hbuf : evt.buf.map (·.bytes) = some frame) : evt.token = some (frameToken frame) := by
  obtain ⟨type, rest, rfl, -⟩ := h
  rw [frameType_header] at htype
  have hne : evt.type ≠ .none := by
    intro hnone
    rw [hnone] at htype
    exact frameEvent_ne_none htype.symm
  have hhead : (frameHeader type src dst ++ rest).headD 0 = type := rfl
  rw [BmDfuEvent.token, if_neg hne, hbuf, frameToken, hhead, ← htype]
  rfl

/-- The first event in the queue is that of the first frame. -/
theorem event_of_token (htoken : evt.token = some (frameToken frame)) :
    ∃ buf, evt = { type := (frameEvent (frame.headD 0)).getD .none, buf := some buf } ∧
      buf.bytes = frame := by
  obtain ⟨type, buf⟩ := evt
  rw [BmDfuEvent.token] at htoken
  split at htoken
  · simp at htoken
  · simp only [frameToken, Option.some.injEq, Prod.mk.injEq] at htoken
    cases buf with
    | none => simp at htoken
    | some buf => exact ⟨buf, by rw [← htoken.1], by simpa using htoken.2⟩

theorem tokens_cons_of_none (h : evt.token = none) : tokens (evt :: rest) = tokens rest :=
  List.filterMap_cons_none h

theorem type_of_token_none (h : evt.token = none) : evt.type = .none := by
  rw [BmDfuEvent.token] at h
  by_contra hne
  simp [hne] at h

/-- A frame on its way is one of those to be handled. -/
theorem mem_of_inbox {more : List (List UInt8)}
    (h : inbox w (frame :: more) = frames.map frameToken) :
    frame ∈ frames := by
  have hmem : frameToken frame ∈ frames.map frameToken := by
    rw [← h, inbox]
    simp
  obtain ⟨f, hf, hfeq⟩ := List.mem_map.mp hmem
  have heq : f = frame := by simpa [frameToken] using congrArg Prod.snd hfeq
  exact heq ▸ hf

/-- The event at the head of the queue. -/
theorem head_of_inbox {flight : List (List UInt8)} {token : BmDfuEvtType × Option (List UInt8)}
    (h : inbox w flight = frames.map frameToken) (hqueue : w.queue = evt :: rest)
    (htoken : evt.token = some token) :
    ∃ f fs, frames = f :: fs ∧ token = frameToken f ∧
      tokens rest ++ flight.map frameToken = fs.map frameToken := by
  rw [inbox, hqueue, tokens, List.filterMap_cons_some htoken] at h
  cases frames with
  | nil => simp at h
  | cons f fs =>
    rw [List.map_cons, List.cons_append, List.cons.injEq] at h
    exact ⟨f, fs, rfl, h.1, h.2⟩

/-! ### Nothing happens -/

theorem HostOf.still (h : HostOf info image hostId clientId stage w) (hstill : Still w u) :
    HostOf info image hostId clientId stage u := by
  cases stage with
  | starting | accepted | asking | sending | done => exact HostAt.still h hstill

theorem HostOf.hostAt (h : HostOf info image hostId clientId stage w) :
    ∃ state n, HostAt info hostId clientId state n w ∧
      (state = .hostReqUpdate ∨ state = .hostUpdate) := by
  cases stage with
  | starting | accepted => exact ⟨_, _, h, .inl rfl⟩
  | asking | sending | done => exact ⟨_, _, h, .inr rfl⟩

theorem ClientOf.still (h : ClientOf info image hostId clientId stage w) (hstill : Still w u) :
    ClientOf info image hostId clientId stage u := by
  have hcore := hstill.core
  cases stage with
  | starting =>
    refine ⟨?_, ?_, ?_⟩
    · rw [hcore]; exact ClientIdle.currentState h
    · rw [hcore]; exact ClientIdle.pending h
    · rw [hcore]; exact ClientIdle.coreId h
  | accepted | asking | sending => exact ClientAt.still h hstill
  | done =>
    refine ⟨?_, ?_, ?_, ?_⟩
    · rw [hcore]; exact ClientDone.currentState h
    · rw [hcore]; exact ClientDone.pending h
    · rw [hcore]; exact ClientDone.newState h
    · rw [hstill.flash]; exact ClientDone.flash h

/-- How much is left to be delivered and taken from the queues. -/
def Link.weight (l : Link) : Nat :=
  2 * (l.forHost.length + l.forClient.length) + l.host.queue.length + l.client.queue.length

/-- The host does nothing. -/
theorem Link.At.host_still (h : l.At info image hostId clientId base stage) {l' : Link}
    (hclient : l'.client = l.client) (hto : l'.toClient = l.toClient)
    (hstill : Still l.host l'.host) (hdelivered : l'.toHost ≤ l.client.sent.length)
    (hinbox : inbox l'.host l'.forHost = inbox l.host l.forHost)
    (hload : l'.host.queue.length + l'.forHost.length ≤ l.host.queue.length + l.forHost.length) :
    l'.At info image hostId clientId base stage := by
  have hforClient : l'.forClient = l.forClient := by
    rw [Link.forClient, hstill.sent, hto]
    rfl
  refine ⟨h.valid, ⟨?_, ?_⟩, ?_, h.host.still hstill, ?_, hinbox.trans h.hostInbox, ?_, ?_,
    ?_, ?_, ?_⟩
  · rw [hto, hstill.sent]
    exact h.delivered.1
  · rw [hclient]
    exact hdelivered
  · rw [hstill.sent]
    exact h.begun
  · rw [hclient]
    exact h.client
  · rw [hclient, hforClient]
    exact h.clientInbox
  · exact hload.trans h.hostLoad
  · rw [hclient, hforClient]
    exact h.clientLoad
  · rw [payloadsSince, hstill.sent]
    exact h.payloads
  · rw [hclient]
    exact h.last

theorem Link.At.client_still (h : l.At info image hostId clientId base stage) {l' : Link}
    (hhost : l'.host = l.host) (hto : l'.toHost = l.toHost)
    (hstill : Still l.client l'.client) (hdelivered : l'.toClient ≤ l.host.sent.length)
    (hinbox : inbox l'.client l'.forClient = inbox l.client l.forClient)
    (hload : l'.client.queue.length + l'.forClient.length ≤
      l.client.queue.length + l.forClient.length)
    (hlast : stage = .done → l'.client.queue ≠ []) : l'.At info image hostId clientId base
    stage := by
  have hforHost : l'.forHost = l.forHost := by
    rw [Link.forHost, hstill.sent, hto]
    rfl
  refine ⟨h.valid, ⟨?_, ?_⟩, ?_, ?_, h.client.still hstill, ?_, hinbox.trans h.clientInbox, ?_,
    ?_, ?_, hlast⟩
  · rw [hhost]
    exact hdelivered
  · rw [hto, hstill.sent]
    exact h.delivered.2
  · rw [hhost]
    exact h.begun
  · rw [hhost]
    exact h.host
  · rw [hhost, hforHost]
    exact h.hostInbox
  · rw [hhost, hforHost]
    exact h.hostLoad
  · exact hload.trans h.clientLoad
  · rw [hhost]
    exact h.payloads

/-- The node has taken over the first frame of those on their way. -/
structure Receives (w u : World) (frame : List UInt8) : Prop extends Still w u where
  inbox : ∀ more, inbox u more = Dfu.inbox w (frame :: more)
  length : u.queue.length = w.queue.length + 1

theorem act_frame_receives {env : Env} {src dst : UInt64} (hmalloc : ∀ n, env.malloc n = true)
    (haddressed : Addressed src dst frame) (hself : w.core.selfNodeId = dst)
    (hvalid : validPacket src w = true) (hroom : w.queue.length < 5) :
    Receives w (act env w (.frame frame)) frame := by
  obtain ⟨type, rest, hframe, htype⟩ := haddressed
  have hdst : dstNodeId env.beyond frame = w.core.selfNodeId := by
    rw [hframe, dstNodeId_header, hself]
  obtain ⟨hstill, evt, hqueue, hevt, hbuf⟩ := deliver_still hmalloc hdst
    (by rw [hframe, srcNodeId_header]; exact hvalid)
    (by rw [hframe, frameType_header]; exact htype) hroom
  have htoken := token_of_frame ⟨type, rest, hframe, htype⟩ env.beyond hevt hbuf
  refine ⟨hstill, fun more => ?_, ?_⟩
  · rw [inbox, inbox, hqueue, tokens_append, List.map_cons]
    simp [tokens, htoken]
  · rw [hqueue, List.length_append]
    rfl

/-- The rest of the frames on their way. -/
theorem drop_succ_of_cons {α : Type} {xs more : List α} {x : α}
    {n : Nat} (h : xs.drop n = x :: more) :
    xs.drop (n + 1) = more ∧ n + 1 ≤ xs.length := by
  constructor
  · rw [← List.drop_drop, h]
    rfl
  · have hlength := congrArg List.length h
    rw [List.length_drop, List.length_cons] at hlength
    omega

/-- A frame reaches the host. -/
theorem Link.At.deliver_host (hup : Upload hostEnv clientEnv info image)
    (h : l.At info image hostId clientId base stage) (hchange : l.forHost ≠ []) :
    (l.step hostEnv clientEnv .toHost).At info image hostId clientId base stage ∧
      (l.step hostEnv clientEnv .toHost).weight < l.weight := by
  obtain ⟨frame, more, hfor⟩ := List.exists_cons_of_ne_nil hchange
  have hinbox := h.hostInbox
  have hload := h.hostLoad
  rw [hfor] at hinbox hload
  have hroom : l.host.queue.length < 5 := by
    rw [List.length_cons] at hload
    cases stage <;> simp only [TransferStage.hostLoad] at hload <;> omega
  obtain ⟨state, n, hhost, hstate⟩ := h.host.hostAt
  have hvalid : validPacket clientId l.host = true := by
    rw [validPacket, hhost.currentState]
    rcases hstate with rfl | rfl <;> simp [bmDfuHostClientNodeValid, hhost.clientId]
  have hreceives : Receives l.host (act hostEnv l.host (.frame frame)) frame :=
    act_frame_receives hup.host.malloc
    (hostFrames_addressed (mem_of_inbox hinbox)) hhost.coreId hvalid
      hroom
  have hstep : l.step hostEnv clientEnv .toHost =
      { l with host := act hostEnv l.host (.frame frame), toHost := l.toHost + 1 } := by
    simp [Link.step, hfor]
  generalize act hostEnv l.host (.frame frame) = u at hreceives hstep
  rw [hstep]
  obtain ⟨hmore, hlength⟩ := drop_succ_of_cons hfor
  have hmore : Link.forHost { l with host := u, toHost := l.toHost + 1 } = more := hmore
  have hforClient : Link.forClient { l with host := u, toHost := l.toHost + 1 } = l.forClient := by
    rw [Link.forClient, hreceives.sent]
    rfl
  refine ⟨h.host_still rfl rfl hreceives.toStill hlength ?_ ?_, ?_⟩
  · rw [hmore, hfor, hreceives.inbox]
  · rw [hmore, hfor, hreceives.length, List.length_cons]
    omega
  · rw [Link.weight, Link.weight, hmore, hforClient, hfor, hreceives.length, List.length_cons]
    dsimp only
    omega

/-- A frame reaches the client. -/
theorem Link.At.deliver_client (hup : Upload hostEnv clientEnv info image)
    (h : l.At info image hostId clientId base stage) (hchange : l.forClient ≠ []) :
    (l.step hostEnv clientEnv .toClient).At info image hostId clientId base stage ∧
      (l.step hostEnv clientEnv .toClient).weight < l.weight := by
  obtain ⟨frame, more, hfor⟩ := List.exists_cons_of_ne_nil hchange
  have hinbox := h.clientInbox
  have hload := h.clientLoad
  rw [hfor] at hinbox hload
  have hroom : l.client.queue.length < 5 := by
    rw [List.length_cons] at hload
    cases stage <;> simp only [TransferStage.clientLoad] at hload <;> omega
  have hmem := mem_of_inbox hinbox
  have hvalid : l.client.core.selfNodeId = clientId ∧ validPacket hostId l.client = true := by
    have hclient := h.client
    cases stage with
    | starting =>
      refine ⟨ClientIdle.coreId hclient, ?_⟩
      rw [validPacket, ClientIdle.currentState hclient]
    | sending k =>
      refine ⟨ClientAt.coreId hclient, ?_⟩
      rw [validPacket, ClientAt.currentState hclient]
      simp [bmDfuClientHostNodeValid, ClientAt.hostId hclient]
    | accepted | asking | done => simp [TransferStage.clientFrames] at hmem
  have hreceives : Receives l.client (act clientEnv l.client (.frame frame)) frame :=
    act_frame_receives hup.client.malloc (clientFrames_addressed hmem) hvalid.1 hvalid.2 hroom
  have hstep : l.step hostEnv clientEnv .toClient =
      { l with client := act clientEnv l.client (.frame frame), toClient := l.toClient + 1 } := by
    simp [Link.step, hfor]
  generalize act clientEnv l.client (.frame frame) = u at hreceives hstep
  rw [hstep]
  obtain ⟨hmore, hlength⟩ := drop_succ_of_cons hfor
  have hmore : Link.forClient { l with client := u, toClient := l.toClient + 1 } = more := hmore
  have hforHost : Link.forHost { l with client := u, toClient := l.toClient + 1 } = l.forHost := by
    rw [Link.forHost, hreceives.sent]
    rfl
  refine ⟨h.client_still rfl rfl hreceives.toStill hlength ?_ ?_ fun _ hnil => ?_, ?_⟩
  · rw [hmore, hfor, hreceives.inbox]
  · rw [hmore, hfor, hreceives.length, List.length_cons]
    omega
  · have hqueued := hreceives.length
    rw [hnil] at hqueued
    exact absurd hqueued (by simp)
  · rw [Link.weight, Link.weight, hmore, hforHost, hfor, hreceives.length, List.length_cons]
    dsimp only
    omega

/-! ### Turns -/

/-- An event that the machine has queued itself. -/
theorem turn_nop (env : Env) (hqueue : w.queue = evt :: rest) (htoken : evt.token = none)
    (hpending : w.core.pendingStateChange = false)
    (hstate : w.core.currentState ∈ [.idle, .hostReqUpdate, .hostUpdate, .clientReceiving]) :
    Still w (act env w .turn) ∧ (∀ more, inbox (act env w .turn) more = inbox w more) ∧
      (act env w .turn).queue.length + 1 = w.queue.length := by
  have htype := type_of_token_none htoken
  have hrun : (w.withQueue rest).withEvent evt = (w.withQueue rest).afterRun env evt := by
    simp only [List.mem_cons, List.not_mem_nil, or_false] at hstate
    rw [World.afterRun]
    rcases hstate with hstate | hstate | hstate | hstate
    · simp [withQueue_core, hstate, dfuStates, sIdleRun, World.withEvent, htype]
    · simp [withQueue_core, hstate, dfuStates, sHostReqUpdateRun, bmDfuGetCurrentEvent,
        World.withEvent,
        htype]
    · simp [withQueue_core, hstate, dfuStates, sHostUpdateRun, bmDfuGetCurrentEvent,
        World.withEvent,
        htype]
    · simp only [withQueue_core, hstate, dfuStates]
      rw [receivingRun_ignored (by simp [World.withEvent, actsInReceiving, htype])]
  obtain ⟨hstill, hrest⟩ := turn_still hqueue hpending hrun
  refine ⟨hstill, fun more => ?_, ?_⟩
  · rw [inbox, inbox, hrest, hqueue, tokens_cons_of_none htoken]
  · rw [hrest, hqueue, List.length_cons]

/-- The distance of a link in a stage from the end of the transfer. -/
def Link.distance (info : BmDfuImgInfo) (image : List UInt8) (stage : TransferStage)
    (l : Link) : Nat :=
  8 * stage.rank info image + l.weight

section Moves
variable {stage' : TransferStage} {new : List (List UInt8)} {nops : List BmDfuEvent}

/-- The host handles the first of its frames: it sends `new` and queues `nops`. -/
theorem Link.At.host_moves (h : l.At info image hostId clientId base stage)
    (hvalid : stage'.Valid info image) (hqueue : l.host.queue = evt :: rest)
    (hinbox : tokens rest ++ l.forHost.map frameToken =
      (stage'.hostFrames hostId clientId).map frameToken)
    (hsent : u.sent = l.host.sent ++ new)
    (huqueue : u.queue = rest ++ nops) (hnops : tokens nops = [])
    (hhost : HostOf info image hostId clientId stage' u)
    (hclient : ClientOf info image hostId clientId stage' l.client)
    (hframes : stage'.clientFrames info image hostId clientId =
      stage.clientFrames info image hostId clientId ++ new)
    (hhostLoad : stage.hostLoad + nops.length ≤ stage'.hostLoad + 1)
    (hclientLoad : stage.clientLoad + new.length ≤ stage'.clientLoad)
    (hpayloads : stage'.chunksSent info image = stage.chunksSent info image +
      new.countP fun frame => frame.headD 0 == bcmpDFUPayloadMessage)
    (hrank : stage'.rank info image + 1 = stage.rank info image) (hfew :
      2 * new.length + nops.length ≤ 8)
    (hlast : stage' = .done → l.client.queue ≠ []) :
    Link.At info image hostId clientId base stage' { l with host := u } ∧
      Link.distance info image stage' { l with host := u } < l.distance info image stage := by
  have hdelivered := h.delivered
  have hbegun := h.begun
  have hforClient : Link.forClient { l with host := u } = l.forClient ++ new := by
    rw [Link.forClient, hsent]
    exact List.drop_append_of_le_length hdelivered.1
  have hload := h.hostLoad
  rw [hqueue, List.length_cons] at hload
  have hqueued : u.queue.length = rest.length + nops.length := by rw [huqueue, List.length_append]
  refine ⟨⟨hvalid, ⟨?_, hdelivered.2⟩, ?_, hhost, hclient, ?_, ?_, ?_, ?_, ?_, hlast⟩, ?_⟩
  · rw [hsent, List.length_append]
    exact hdelivered.1.trans (Nat.le_add_right _ _)
  · rw [hsent, List.length_append]
    exact hbegun.trans (Nat.le_add_right _ _)
  · rw [inbox, huqueue, tokens_append, hnops, List.append_nil]
    exact hinbox
  · rw [inbox, hforClient, List.map_append, ← List.append_assoc, hframes, List.map_append]
    exact congrArg (· ++ new.map frameToken) h.clientInbox
  · rw [hqueued]
    change rest.length + nops.length + l.forHost.length ≤ _
    omega
  · have hclientLoad' := h.clientLoad
    rw [hforClient, List.length_append]
    dsimp only
    omega
  · have hpast := h.payloads
    rw [payloadsSince] at hpast ⊢
    rw [hsent, List.drop_append_of_le_length hbegun, List.countP_append, hpast, hpayloads]
  · rw [Link.distance, Link.distance, Link.weight, Link.weight, hforClient, List.length_append,
      hqueued,
      hqueue, List.length_cons]
    change 8 * stage'.rank info image + (2 * (l.forHost.length + _) + _ + l.client.queue.length) < _
    omega

/-- The client handles the first of its frames. -/
theorem Link.At.client_moves (h : l.At info image hostId clientId base stage)
    (hvalid : stage'.Valid info image) (hqueue : l.client.queue = evt :: rest)
    (hinbox : tokens rest ++ l.forClient.map frameToken =
      (stage'.clientFrames info image hostId clientId).map frameToken)
    (hsent : u.sent = l.client.sent ++ new)
    (huqueue : u.queue = rest ++ nops) (hnops : tokens nops = [])
    (hhost : HostOf info image hostId clientId stage' l.host)
    (hclient : ClientOf info image hostId clientId stage' u)
    (hframes : stage'.hostFrames hostId clientId = stage.hostFrames hostId clientId ++ new)
    (hhostLoad : stage.hostLoad + new.length ≤ stage'.hostLoad)
    (hclientLoad : stage.clientLoad + nops.length ≤ stage'.clientLoad + 1)
    (hpayloads : stage'.chunksSent info image = stage.chunksSent info image)
    (hrank : stage'.rank info image + 1 = stage.rank info image) (hfew :
      2 * new.length + nops.length ≤ 8)
    (hlast : stage' = .done → nops ≠ []) :
    Link.At info image hostId clientId base stage' { l with client := u } ∧
      Link.distance info image stage' { l with client := u } < l.distance info image stage := by
  have hdelivered := h.delivered
  have hforHost : Link.forHost { l with client := u } = l.forHost ++ new := by
    rw [Link.forHost, hsent]
    exact List.drop_append_of_le_length hdelivered.2
  have hload := h.clientLoad
  rw [hqueue, List.length_cons] at hload
  have hqueued : u.queue.length = rest.length + nops.length := by rw [huqueue, List.length_append]
  refine ⟨⟨hvalid, ⟨hdelivered.1, ?_⟩, h.begun, hhost, hclient, ?_, ?_, ?_, ?_, ?_, ?_⟩, ?_⟩
  · rw [hsent, List.length_append]
    exact hdelivered.2.trans (Nat.le_add_right _ _)
  · rw [inbox, hforHost, List.map_append, ← List.append_assoc, hframes, List.map_append]
    exact congrArg (· ++ new.map frameToken) h.hostInbox
  · rw [inbox, huqueue, tokens_append, hnops, List.append_nil]
    exact hinbox
  · have hhostLoad' := h.hostLoad
    rw [hforHost, List.length_append]
    dsimp only
    omega
  · rw [hqueued]
    change rest.length + nops.length + l.forClient.length ≤ _
    omega
  · exact h.payloads.trans hpayloads.symm
  · intro hdone hnil
    rw [huqueue] at hnil
    exact hlast hdone (List.append_eq_nil_iff.mp hnil).2
  · rw [Link.distance, Link.distance, Link.weight, Link.weight, hforHost, List.length_append,
      hqueued,
      hqueue, List.length_cons]
    change 8 * stage'.rank info image + (2 * (_ + l.forClient.length) + l.host.queue.length + _) < _
    omega

end Moves

/-- A turn of the host. -/
theorem Link.At.host_turn (hup : Upload hostEnv clientEnv info image)
    (h : l.At info image hostId clientId base stage) (hchange : l.host.queue ≠ []) :
    ∃ stage', (l.step hostEnv clientEnv .hostTurn).At info image hostId clientId base stage' ∧
      (l.step hostEnv clientEnv .hostTurn).distance info image stage' < l.distance info image
      stage := by
  obtain ⟨evt, rest, hqueue⟩ := List.exists_cons_of_ne_nil hchange
  have hstep : l.step hostEnv clientEnv .hostTurn = { l with host := act hostEnv l.host .turn } :=
    rfl
  rw [hstep]
  cases htoken : evt.token with
  | none =>
    obtain ⟨state, n, hhost, hstate⟩ := h.host.hostAt
    obtain ⟨hstill, hinbox, hlength⟩ := turn_nop hostEnv hqueue htoken hhost.pending
      (by rw [hhost.currentState]; rcases hstate with rfl | rfl <;> simp)
    generalize act hostEnv l.host .turn = u at hstill hinbox hlength
    have hforClient : Link.forClient { l with host := u } = l.forClient := by
      rw [Link.forClient, hstill.sent]
      rfl
    refine ⟨stage, h.host_still rfl rfl hstill h.delivered.2 (hinbox _) ?_, ?_⟩
    · change u.queue.length + l.forHost.length ≤ _
      omega
    · rw [Link.distance, Link.distance, Link.weight, Link.weight, hforClient]
      change _ + (2 * (l.forHost.length + _) + u.queue.length + l.client.queue.length) < _
      omega
  | some token =>
    obtain ⟨f, fs, hframes, rfl, hinbox⟩ := head_of_inbox h.hostInbox hqueue htoken
    obtain ⟨buf, hevt, hbuf⟩ := event_of_token htoken
    have hhost := h.host
    have hroom : rest.length < 5 := by
      have hload := h.hostLoad
      rw [hqueue, List.length_cons] at hload
      cases stage <;> simp only [TransferStage.hostLoad] at hload <;> omega
    cases stage with
    | accepted =>
      simp only [TransferStage.hostFrames, List.cons.injEq] at hframes
      obtain ⟨rfl, rfl⟩ := hframes
      obtain ⟨hat, huqueue, hsent⟩ := host_ack hup.host hhost hqueue hevt hbuf hroom
      rw [← List.append_nil l.host.sent] at hsent
      have hfirst : TransferStage.Valid info image (.asking 0) := by
        change 0 < _
        rw [lt_chunkCount hup.chunkSize.1, Nat.zero_mul]
        exact hup.nonempty
      refine ⟨.asking 0, h.host_moves hfirst hqueue hinbox hsent huqueue rfl hat h.client rfl ?_ ?_
        rfl rfl ?_ (by simp)⟩
      · simp [TransferStage.hostLoad]
      · simp [TransferStage.clientLoad]
      · simp
    | asking k =>
      simp only [TransferStage.hostFrames, List.cons.injEq] at hframes
      obtain ⟨rfl, rfl⟩ := hframes
      obtain ⟨hat, huqueue, hsent⟩ := host_request hup hhost h.valid hqueue hevt
      rw [← List.append_nil rest] at huqueue
      refine ⟨.sending k, h.host_moves h.valid hqueue hinbox hsent huqueue rfl hat h.client rfl
        ?_ ?_ ?_ rfl ?_ (by simp)⟩
      · simp [TransferStage.hostLoad]
      · simp [TransferStage.clientLoad]
      · simp only [TransferStage.chunksSent, List.countP_cons, List.countP_nil]
        rfl
      · simp
    | starting | sending | done => simp [TransferStage.hostFrames] at hframes

/-- What the transfer has to reach. -/
structure Link.Complete (image : List UInt8) (chunkSize base : Nat) (l : Link) : Prop where
  client : l.client.core.currentState = .clientRebootReq
  flash : peek l.client.flash 0 image.length = image
  host : l.host.host.bytesRemaining = 0
  payloads : payloadsSince base l.host = chunkCount image chunkSize

theorem Link.step_clientTurn : l.step hostEnv clientEnv .clientTurn =
    { l with client := act clientEnv l.client .turn } := rfl

section ClientTurn
variable {evt : BmDfuEvent} {rest : List BmDfuEvent}

/-- An event without a frame ends the transfer, or it is passed over. -/
theorem Link.At.client_turn_nop (hup : Upload hostEnv clientEnv info image)
    (h : l.At info image hostId clientId base stage) (hqueue : l.client.queue = evt :: rest)
    (htoken : evt.token = none) :
    (l.step hostEnv clientEnv .clientTurn).Complete image info.chunkSize.toNat base ∨
    ∃ stage', (l.step hostEnv clientEnv .clientTurn).At info image hostId clientId base stage' ∧
      (l.step hostEnv clientEnv .clientTurn).distance info image stage' <
        l.distance info image stage := by
  rw [Link.step_clientTurn]
  have hclient := h.client
  have hload := h.clientLoad
  rw [hqueue, List.length_cons] at hload
  by_cases hdone : stage = .done
  · subst hdone
    obtain ⟨hstate, hflash⟩ := client_validated clientEnv hclient hqueue
    refine .inl ⟨hstate, ?_, ?_, h.payloads⟩
    · rw [hflash]
      exact ClientDone.flash hclient
    · have hlast : ¬chunkCount image info.chunkSize.toNat < chunkCount image
          info.chunkSize.toNat :=
        Nat.lt_irrefl _
      rw [lt_chunkCount hup.chunkSize.1] at hlast
      have hremaining := HostAt.remaining h.host
      rw [← hup.size] at hremaining
      change l.host.host.bytesRemaining = 0
      omega
  · right
    have hstate : l.client.core.pendingStateChange = false ∧
        l.client.core.currentState ∈ [.idle, .hostReqUpdate, .hostUpdate, .clientReceiving] := by
      cases stage with
      | starting => exact ⟨ClientIdle.pending hclient, by simp [ClientIdle.currentState hclient]⟩
      | accepted | asking | sending =>
        exact ⟨ClientAt.pending hclient, by simp [ClientAt.currentState hclient]⟩
      | done => exact absurd rfl hdone
    obtain ⟨hstill, hinbox, hlength⟩ := turn_nop clientEnv hqueue htoken hstate.1 hstate.2
    generalize act clientEnv l.client .turn = u at hstill hinbox hlength
    have hforHost : Link.forHost { l with client := u } = l.forHost := by
      rw [Link.forHost, hstill.sent]
      rfl
    refine ⟨stage, h.client_still rfl rfl hstill h.delivered.1 (hinbox _) ?_
      fun hstage => absurd hstage hdone, ?_⟩
    · change u.queue.length + l.forClient.length ≤ _
      omega
    · rw [Link.distance, Link.distance, Link.weight, Link.weight, hforHost]
      change _ + (2 * (_ + l.forClient.length) + l.host.queue.length + u.queue.length) < _
      omega

/-- A frame brings the transfer on. -/
theorem Link.At.client_turn_frame (hup : Upload hostEnv clientEnv info image)
    (h : l.At info image hostId clientId base stage) (hqueue : l.client.queue = evt :: rest)
    {token : BmDfuEvtType × Option (List UInt8)} (htoken : evt.token = some token) :
    ∃ stage', (l.step hostEnv clientEnv .clientTurn).At info image hostId clientId base stage' ∧
      (l.step hostEnv clientEnv .clientTurn).distance info image stage' <
        l.distance info image stage := by
  rw [Link.step_clientTurn]
  have hclient := h.client
  have hload := h.clientLoad
  rw [hqueue, List.length_cons] at hload
  obtain ⟨f, fs, hframes, rfl, hinbox⟩ := head_of_inbox h.clientInbox hqueue htoken
  obtain ⟨buf, hevt, hbuf⟩ := event_of_token htoken
  cases stage with
  | starting =>
    simp only [TransferStage.clientFrames, List.cons.injEq] at hframes
    obtain ⟨rfl, rfl⟩ := hframes
    simp only [TransferStage.clientLoad] at hload
    obtain ⟨hat, huqueue, hsent⟩ := client_start hup (ClientIdle.currentState hclient)
      (ClientIdle.coreId hclient) hqueue hevt hbuf (by omega)
    refine ⟨.accepted, h.client_moves trivial hqueue hinbox hsent huqueue rfl h.host hat rfl ?_ ?_
      rfl rfl ?_ (by simp)⟩
    · simp [TransferStage.hostLoad]
    · simp [TransferStage.clientLoad]
    · simp
  | sending k =>
    simp only [TransferStage.clientFrames, List.cons.injEq] at hframes
    obtain ⟨rfl, rfl⟩ := hframes
    simp only [TransferStage.clientLoad] at hload
    have hk : k < chunkCount image info.chunkSize.toNat := h.valid
    by_cases hnext : k + 1 < chunkCount image info.chunkSize.toNat
    · obtain ⟨hat, huqueue, hsent⟩ := client_chunk hup hclient hnext hqueue hevt hbuf
      rw [← List.append_nil rest] at huqueue
      refine ⟨.asking (k + 1), h.client_moves hnext hqueue hinbox hsent huqueue rfl h.host hat rfl
        ?_ ?_ rfl ?_ ?_ (by simp)⟩
      · simp [TransferStage.hostLoad]
      · simp [TransferStage.clientLoad]
      · simp only [TransferStage.rank]
        omega
      · simp
    · have hlast : k + 1 = chunkCount image info.chunkSize.toNat := by omega
      obtain ⟨hat, huqueue, hsent⟩ := client_last hup hclient hlast hqueue hevt hbuf (by omega)
      rw [← List.append_nil l.client.sent] at hsent
      rw [List.append_assoc] at huqueue
      have hhost : HostOf info image hostId clientId .done l.host := by
        have hhost : HostAt info hostId clientId .hostUpdate (k + 1) l.host := h.host
        rw [hlast] at hhost
        exact hhost
      refine ⟨.done, h.client_moves trivial hqueue hinbox hsent huqueue rfl hhost hat rfl ?_ ?_ ?_
        ?_ ?_ (by simp)⟩
      · simp [TransferStage.hostLoad]
      · simp [TransferStage.clientLoad]
      · exact hlast.symm
      · simp only [TransferStage.rank]
        omega
      · simp
  | accepted | asking | done => simp [TransferStage.clientFrames] at hframes

end ClientTurn

/-- A turn of the client. -/
theorem Link.At.client_turn (hup : Upload hostEnv clientEnv info image)
    (h : l.At info image hostId clientId base stage) (hchange : l.client.queue ≠ []) :
    (l.step hostEnv clientEnv .clientTurn).Complete image info.chunkSize.toNat base ∨
    ∃ stage', (l.step hostEnv clientEnv .clientTurn).At info image hostId clientId base stage' ∧
      (l.step hostEnv clientEnv .clientTurn).distance info image stage' <
        l.distance info image stage := by
  obtain ⟨evt, rest, hqueue⟩ := List.exists_cons_of_ne_nil hchange
  cases htoken : evt.token with
  | none => exact h.client_turn_nop hup hqueue htoken
  | some token => exact .inr (h.client_turn_frame hup hqueue htoken)

/-! ### The run -/

/-- A node with nothing to do. -/
structure Resting (nodeId : UInt64) (w : World) : Prop where
  currentState : w.core.currentState = .idle
  pending : w.core.pendingStateChange = false
  queue : w.queue = []
  coreId : w.core.selfNodeId = nodeId
  hostId : w.host.selfNodeId = nodeId
  clientId : w.client.selfNodeId = nodeId

/-- The application of the host asks for the update of the client. -/
def Link.start (hostEnv : Env) (info : BmDfuImgInfo) (clientId : UInt64) (fn : Option Nat)
    (timeoutMs : Nat) (h c : World) : Link where
  host := (bmDfuInitiateUpdate hostEnv info clientId fn timeoutMs true h).2
  client := c
  toClient := h.sent.length
  toHost := c.sent.length

/-- A move that has something to do. -/
def Link.Changes (l : Link) : LinkMove → Prop
  | .hostTurn => l.host.queue ≠ []
  | .clientTurn => l.client.queue ≠ []
  | .toClient => l.forClient ≠ []
  | .toHost => l.forHost ≠ []

theorem Link.step_of_not_changes (l : Link) (move : LinkMove) (h : ¬l.Changes move) :
    l.step hostEnv clientEnv move = l := by
  cases move with
  | hostTurn =>
    rw [Link.step, act_turn_nil hostEnv (not_not.mp h)]
  | clientTurn =>
    rw [Link.step, act_turn_nil clientEnv (not_not.mp h)]
  | toClient =>
    have hnil : l.forClient = [] := not_not.mp h
    simp only [Link.step, hnil]
  | toHost =>
    have hnil : l.forHost = [] := not_not.mp h
    simp only [Link.step, hnil]

theorem Link.At.step (hup : Upload hostEnv clientEnv info image)
    (h : l.At info image hostId clientId base stage) {move : LinkMove} (hchange : l.Changes move) :
    (l.step hostEnv clientEnv move).Complete image info.chunkSize.toNat base ∨
    ∃ stage', (l.step hostEnv clientEnv move).At info image hostId clientId base stage' ∧
      (l.step hostEnv clientEnv move).distance info image stage' < l.distance info image stage := by
  cases move with
  | hostTurn => exact .inr (h.host_turn hup hchange)
  | clientTurn => exact h.client_turn hup hchange
  | toClient =>
    obtain ⟨hat, hlt⟩ := h.deliver_client hup hchange
    exact .inr ⟨stage, hat, Nat.add_lt_add_left hlt _⟩
  | toHost =>
    obtain ⟨hat, hlt⟩ := h.deliver_host hup hchange
    exact .inr ⟨stage, hat, Nat.add_lt_add_left hlt _⟩

/-- There is always something left to do. -/
theorem Link.At.exists_change (h : l.At info image hostId clientId base stage) :
    ∃ move, l.Changes move := by
  have hsome : ∀ (w : World) (flight frames : List (List UInt8)),
      inbox w flight = frames.map frameToken → frames ≠ [] → w.queue ≠ [] ∨ flight ≠ [] := by
    intro w flight frames hinbox hne
    by_contra hnone
    rw [not_or, not_not, not_not] at hnone
    rw [inbox, hnone.1, hnone.2] at hinbox
    exact hne (List.map_eq_nil_iff.mp hinbox.symm)
  cases stage with
  | starting | sending =>
    rcases hsome _ _ _ h.clientInbox (by simp [TransferStage.clientFrames]) with hqueue | hflight
    · exact ⟨.clientTurn, hqueue⟩
    · exact ⟨.toClient, hflight⟩
  | accepted | asking =>
    rcases hsome _ _ _ h.hostInbox (by simp [TransferStage.hostFrames]) with hqueue | hflight
    · exact ⟨.hostTurn, hqueue⟩
    · exact ⟨.toHost, hflight⟩
  | done => exact ⟨.clientTurn, h.last rfl⟩

theorem initiateUpdate_eq (clientId : UInt64)
    (hup : Upload hostEnv clientEnv info image) (hrest : Resting hostId w)
    (fn : Option Nat) (timeoutMs : Nat) :
    ∃ buf, buf.bytes = startFrame hostId clientId info ∧
      (bmDfuInitiateUpdate hostEnv info clientId fn timeoutMs true w).2 =
        ((w.emit (.malloc true)).withQueue [{ type := .beginHost, buf := some buf }]).withCore
          { w.core with internal := true } := by
  refine ⟨⟨w.log.length + 1, startFrame hostId clientId info,
    fn.map fun f => ⟨f, w.log.length⟩, timeoutMs⟩, rfl, ?_⟩
  have hsmall : ¬info.chunkSize.toNat > bmDfuMaxChunkSize := Nat.not_lt.mpr hup.chunkSize.2
  simp [bmDfuInitiateUpdate, hsmall, hrest.currentState, hup.host.malloc, bmQueueSend, hrest.queue,
    hrest.coreId]

/-- The host sends the Start frame. -/
theorem Link.start_turn (hup : Upload hostEnv clientEnv info image) {h c : World}
    (hhost : Resting hostId h) (hclient : Resting clientId c) (fn : Option Nat) (timeoutMs : Nat) :
    let l := (Link.start hostEnv info clientId fn timeoutMs h c).step hostEnv clientEnv .hostTurn
    Link.At info image hostId clientId h.sent.length .starting l ∧ l.weight = 3 := by
  obtain ⟨buf, hbuf, hstart⟩ := initiateUpdate_eq clientId hup hhost fn timeoutMs
  intro l
  have hl :
    l = ⟨act hostEnv (bmDfuInitiateUpdate hostEnv info clientId fn timeoutMs true h).2 .turn, c,
    h.sent.length, c.sent.length⟩ := rfl
  generalize (bmDfuInitiateUpdate hostEnv info clientId fn timeoutMs true h).2 = v at hstart hl
  have hbegin : HostAt info hostId clientId .hostReqUpdate 0 (act hostEnv v .turn) ∧
      (act hostEnv v .turn).queue = [] ++ [{ type := .none }] ∧
      (act hostEnv v .turn).sent = v.sent ++ [startFrame hostId clientId info] :=
    host_begin hup.host (by rw [hstart]; exact hhost.currentState)
    (by rw [hstart]; exact hhost.coreId)
      (by rw [hstart]; exact hhost.hostId) (by rw [hstart]; rfl)
      (by rw [hstart]; rfl) rfl hbuf (by simp)
  have hvsent : v.sent = h.sent := by
    rw [hstart]
    rfl
  obtain ⟨hat, hqueue, hsent⟩ := hbegin
  rw [hvsent] at hsent
  generalize act hostEnv v .turn = u at hl hat hqueue hsent
  have hforClient : l.forClient = [startFrame hostId clientId info] := by
    rw [hl, Link.forClient, hsent, List.drop_left]
  have hforHost : l.forHost = [] := by
    rw [hl, Link.forHost, List.drop_length]
  have hlhost : l.host = u := by rw [hl]
  have hlclient : l.client = c := by rw [hl]
  refine ⟨⟨trivial, ⟨?_, ?_⟩, ?_, ?_, ?_, ?_, ?_, ?_, ?_, ?_, by simp⟩, ?_⟩
  · rw [hlhost, hsent, hl]
    simp
  · rw [hl]
  · rw [hlhost, hsent]
    simp
  · rw [hlhost]
    exact hat
  · rw [hlclient]
    exact ⟨hclient.currentState, hclient.pending, hclient.coreId⟩
  · rw [hlhost, hforHost, inbox, hqueue]
    rfl
  · rw [hlclient, hforClient, inbox, hclient.queue]
    rfl
  · rw [hlhost, hforHost, hqueue]
    simp [TransferStage.hostLoad]
  · rw [hlclient, hforClient, hclient.queue]
    simp [TransferStage.clientLoad]
  · rw [hlhost, payloadsSince, hsent, List.drop_left]
    rfl
  · rw [Link.weight, hforHost, hforClient, hlhost, hlclient, hqueue, hclient.queue]
    rfl

/-- Under every fair schedule the client gets the image and asks for the reboot. -/
theorem lossless_transfer (hup : Upload hostEnv clientEnv info image) {h c : World}
    (hhost : Resting hostId h) (hclient : Resting clientId c) (fn : Option Nat) (timeoutMs : Nat)
    {schedule : Nat → LinkMove} (hfair : Fair schedule) :
    ∃ n, (stateAt (Link.step hostEnv clientEnv) schedule
      (Link.start hostEnv info clientId fn timeoutMs h c) n).Complete image info.chunkSize.toNat
        h.sent.length := by
  generalize hl₀ : Link.start hostEnv info clientId fn timeoutMs h c = l₀
  have hstart := Link.start_turn hup hhost hclient fn timeoutMs
  rw [hl₀] at hstart
  obtain ⟨hat, hweight⟩ := hstart
  -- before its first turn the host is the only one with something to do
  have honly : ∀ move, l₀.Changes move → move = .hostTurn := by
    intro move hchange
    obtain ⟨buf, -, hinitiate⟩ := initiateUpdate_eq clientId hup hhost fn timeoutMs
    have hsent : l₀.host.sent = h.sent := by
      rw [← hl₀, Link.start, hinitiate]
      rfl
    cases move with
    | hostTurn => rfl
    | clientTurn =>
      refine absurd ?_ hchange
      rw [← hl₀]
      exact hclient.queue
    | toClient =>
      refine absurd ?_ hchange
      rw [Link.forClient, hsent, ← hl₀]
      exact List.drop_length
    | toHost =>
      refine absurd ?_ hchange
      rw [← hl₀]
      exact List.drop_length
  have hturn : l₀.Changes .hostTurn := by
    obtain ⟨buf, -, hinitiate⟩ := initiateUpdate_eq clientId hup hhost fn timeoutMs
    change l₀.host.queue ≠ []
    rw [← hl₀, Link.start, hinitiate]
    simp
  let Inv : Nat → Link → Prop := fun m l =>
    l = l₀ ∧ m = 8 * (TransferStage.starting.rank info image + 1) ∨
      ∃ stage, l.At info image hostId clientId h.sent.length stage ∧ m = l.distance info image stage
  refine hfair.reaches Inv _ Link.Changes (fun l move => l.step_of_not_changes move) ?_ ?_
    (.inl ⟨rfl, rfl⟩ : Inv _ l₀)
  · rintro m l (⟨rfl, -⟩ | ⟨stage, hstage, -⟩)
    · exact ⟨.hostTurn, hturn⟩
    · exact hstage.exists_change
  · rintro m l move (⟨rfl, rfl⟩ | ⟨stage, hstage, rfl⟩) hchange
    · obtain rfl := honly move hchange
      refine .inr ⟨_, ?_, .inr ⟨.starting, hat, rfl⟩⟩
      rw [Link.distance, hweight]
      omega
    · rcases hstage.step hup hchange with hcomplete | ⟨stage', hnext, hlt⟩
      · exact .inl hcomplete
      · exact .inr ⟨_, hlt, .inr ⟨stage', hnext, rfl⟩⟩

/-- The nodes and the channel in turn. -/
def roundRobin (n : Nat) : LinkMove :=
  if n % 4 = 0 then .hostTurn
  else if n % 4 = 1 then .toClient
  else if n % 4 = 2 then .clientTurn
  else .toHost

theorem roundRobin_fair : Fair roundRobin := by
  intro move n
  cases move with
  | hostTurn => exact ⟨3 * n, by grind [roundRobin]⟩
  | toClient => exact ⟨3 * n + 1, by grind [roundRobin]⟩
  | clientTurn => exact ⟨3 * n + 2, by grind [roundRobin]⟩
  | toHost => exact ⟨3 * n + 3, by grind [roundRobin]⟩

/-- A node that has come up without an update to confirm. -/
def freshNode (nodeId : UInt64) : World :=
  [.turn, .turn].foldl (act (Env.steady 1 4096 [])) (bmDfuInit nodeId .zero fun _ => 0)

theorem freshNode_resting (nodeId : UInt64) : Resting nodeId (freshNode nodeId) where
  currentState := rfl
  pending := rfl
  queue := rfl
  coreId := rfl
  hostId := rfl
  clientId := rfl

/-- Three bytes in chunks of two. -/
def threeBytes : BmDfuImgInfo :=
  ⟨3, 2, crc16Ccitt 0 [10, 20, 30], 0, 1, 0, 2⟩

theorem threeBytes_upload :
    Upload (Env.steady 1 4096 [10, 20, 30]) (Env.steady 1 4096 []) threeBytes [10, 20, 30] where
  host := by constructor <;> intro n <;> rfl
  client := by constructor <;> intro n <;> rfl
  size := rfl
  nonempty := by decide
  chunkSize := by decide
  count := by decide
  source := by
    intro call off len _
    simp [Env.steady]
  crc16 := rfl
  wanted := by decide
  fits := by decide

theorem threeBytes_transferred :
    ∃ n, (stateAt (Link.step (Env.steady 1 4096 [10, 20, 30]) (Env.steady 1 4096 [])) roundRobin
      (Link.start (Env.steady 1 4096 [10, 20, 30]) threeBytes 8 none 1000
        (freshNode 7) (freshNode 8))
        n).Complete [10, 20, 30] 2 (freshNode 7).sent.length :=
  lossless_transfer threeBytes_upload (freshNode_resting 7) (freshNode_resting 8) none 1000
    roundRobin_fair

end Run

end BmCore.Dfu
