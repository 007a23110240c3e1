import BmCore.Dfu.Lossless
import BmCore.Dfu.Peers
import BmCore.Dfu.SentFrames

/-!
# Agreement on chunks

One host and one client on a channel that may lose, delay, reorder and repeat frames, with every
timer of theirs. A host answers any chunk request with the chunk behind the last one it has sent,
and a client takes any payload for the chunk it is at; which chunk was meant, the frames do not say
or is not looked at. The two agree as long as no request is answered twice, no payload arrives twice
and the client is not started over behind a payload. -/
namespace BmCore.Dfu
open Library

/-- The payload of a Payload frame. -/
def framePayload (beyond : Nat → UInt8) (frame : List UInt8) : List UInt8 :=
  payloadBuf beyond frame (payloadLength beyond frame)

/-- The Payload frames that a host has sent. -/
def World.payloads (w : World) : List (List UInt8) := w.framesOf bcmpDFUPayloadMessage

/-- The payload that is accepted when the event is handled: it is not too long, and the chunk timer
is stopped. -/
def takesPayload (env : Env) (w : World) (evt : BmDfuEvent) : Option (List UInt8) :=
  match w.core.currentState, evt.type, evt.buf with
  | .clientReceiving, .imageChunk, some buf =>
    if payloadLength env.beyond buf.bytes ≤ bmDfuMaxChunkSize ∧ env.timerStop w.log.length = .ok
    then some (framePayload env.beyond buf.bytes) else none
  | _, _, _ => none

/-- The client is started, or started over, when the event is handled. -/
def takesStart (env : Env) (w : World) (evt : BmDfuEvent) : Bool :=
  restarts env w evt || (w.core.currentState = .idle && evt.type = .receivedUpdateRequest &&
    evt.buf.any fun buf => AcceptsStart env w buf)

/-- The accepted payloads when the event is handled. -/
def acceptedNext (env : Env) (w : World) (evt : BmDfuEvent) (accepted : List (List UInt8)) :
    List (List UInt8) :=
  if takesStart env w evt then [] else accepted ++ (takesPayload env w evt).toList

/-- The answers to a chunk request: the number that was asked for and what was sent. -/
def answersOf (env : Env) (w : World) : List (Nat × List UInt8) :=
  match w.queue with
  | { type := .chunkRequest, buf := some buf } :: _ =>
    ((act env w .turn).payloads.drop w.payloads.length).map fun frame =>
      (seqNum env.beyond buf.bytes, framePayload env.beyond frame)
  | _ => []

/-- A host and a client, with what an observer remembers: the payloads accepted since the client was
last started or started over, the Payload frames that have reached it, and the answers of the
host. -/
structure Exchange where
  host : World
  client : World
  accepted : List (List UInt8)
  delivered : List Nat
  answers : List (Nat × List UInt8)

namespace Exchange

/-- The channel delivers any frame that was sent, told by its type and its number among the frames
of this type, at any time and as often as it likes. -/
inductive Move where
  | hostTurn | clientTurn
  | ackTimer | heartbeatTimer | updateTimer
  | chunkTimer
  | initiateUpdate (info : BmDfuImgInfo) (dest : UInt64) (fn : Option Nat) (timeoutMs : Nat)
      (internal : Bool)
  | queueData (data : List UInt8)
  | toClient (type : UInt8) (n : Nat)
  | toHost (type : UInt8) (n : Nat)
  deriving DecidableEq

/-- What a turn of the client makes of the accepted payloads. -/
def acceptedAfter (env : Env) (w : World) (accepted : List (List UInt8)) : List (List UInt8) :=
  match w.queue with
  | [] => accepted
  | evt :: _ => acceptedNext env w evt accepted

def step (hostEnv clientEnv : Env) (x : Exchange) : Move → Exchange
  | .hostTurn =>
    { x with host := act hostEnv x.host .turn, answers := x.answers ++ answersOf hostEnv x.host }
  | .clientTurn =>
    { x with
      client := act clientEnv x.client .turn
      accepted := acceptedAfter clientEnv x.client x.accepted }
  | .ackTimer => { x with host := act hostEnv x.host .ackTimer }
  | .heartbeatTimer => { x with host := act hostEnv x.host .heartbeatTimer }
  | .updateTimer => { x with host := act hostEnv x.host .updateTimer }
  | .chunkTimer => { x with client := act clientEnv x.client .chunkTimer }
  | .initiateUpdate info dest fn timeoutMs internal =>
    { x with host := act hostEnv x.host (.initiateUpdate info dest fn timeoutMs internal) }
  | .queueData data => { x with host := act hostEnv x.host (.queueData data) }
  | .toClient type n =>
    match (x.host.framesOf type)[n]? with
    | some frame =>
      { x with
        client := act clientEnv x.client (.frame frame)
        delivered := if type = bcmpDFUPayloadMessage then n :: x.delivered else x.delivered }
    | none => x
  | .toHost type n =>
    match (x.client.framesOf type)[n]? with
    | some frame => { x with host := act hostEnv x.host (.frame frame) }
    | none => x

/-- Two nodes that have just come up. -/
def start (hostId clientId : UInt64) (hostInfo clientInfo : RebootClientUpdateInfo)
    (hostFlash clientFlash : Nat → UInt8) : Exchange where
  host := bmDfuInit hostId hostInfo hostFlash
  client := bmDfuInit clientId clientInfo clientFlash
  accepted := []
  delivered := []
  answers := []

/-- The chunk size of the host. -/
def chunkSize (x : Exchange) : Nat := x.host.host.imgInfo.chunkSize.toNat

/-- The accepted payloads are the chunks of the image in order, and every request was answered with
the chunk that it asked for. -/
structure Agrees (image : List UInt8) (x : Exchange) : Prop where
  accepted : ∀ k payload, x.accepted[k]? = some payload → payload = chunkAt image x.chunkSize k
  answers : ∀ answer ∈ x.answers, answer.2 = chunkAt image x.chunkSize answer.1

/-- A host that reads the image from a stream buffer finds the next chunk in it. -/
def HasChunk (image : List UInt8) (w : World) : Prop :=
  w.core.internal = false → ∀ data ∈ w.host.dataQueue,
    chunkAt image w.host.imgInfo.chunkSize.toNat w.payloads.length <+: data

/-- The condition on a turn of the host: a host that is asked for a chunk is asked for the one
behind those it has sent and has it at hand, and it begins with this image before it has sent
any. -/
def HostOrderly (env : Env) (image : List UInt8) (w : World) : Prop :=
  ∀ evt ∈ w.queue.head?, ∀ buf ∈ evt.buf,
    (asksForChunk w evt = true → seqNum env.beyond buf.bytes = w.payloads.length ∧
    HasChunk image w) ∧
    (w.core.currentState = .idle → evt.type = .beginHost →
      w.payloads = [] ∧ (imgInfo env.beyond buf.bytes).imageSize.toNat = image.length)

/-- The condition on a move: that on the host, the client is started only before it has accepted a
payload, and no Payload frame arrives twice. -/
def Orderly (hostEnv clientEnv : Env) (image : List UInt8) (x : Exchange) : Move → Prop
  | .hostTurn => HostOrderly hostEnv image x.host
  | .clientTurn => ∀ evt ∈ x.client.queue.head?, takesStart clientEnv x.client evt = true →
    x.accepted = []
  | .toClient type n => type = bcmpDFUPayloadMessage → n ∉ x.delivered
  | _ => True

end Exchange

/-! ## Chunks in frames -/

/-- A Payload frame with a chunk. -/
def Carries (frame chunk : List UInt8) : Prop :=
  chunk.length < 2 ^ 16 ∧ ∃ src dst, frame = payloadFrame src dst chunk.length chunk

theorem Carries.framePayload {frame chunk : List UInt8} (h : Carries frame chunk)
    (beyond : Nat → UInt8) :
    framePayload beyond frame = chunk := by
  obtain ⟨hlt, src, dst, rfl⟩ := h
  rw [Dfu.framePayload, payloadLength_payloadFrame beyond src dst hlt, payloadBuf_payloadFrame]

/-- A PayloadReq frame for a chunk. -/
def AsksFor (frame : List UInt8) (n : Nat) : Prop :=
  n < 2 ^ 16 ∧ ∃ src dst, frame = payloadReqFrame src dst n

theorem AsksFor.seqNum {frame : List UInt8} {n : Nat} (h : AsksFor frame n) (beyond : Nat → UInt8) :
    seqNum beyond frame = n := by
  obtain ⟨hlt, src, dst, rfl⟩ := h
  exact seqNum_payloadReqFrame beyond src dst hlt

/-! ## The host -/

/-- What a host is to send, and how much of it is left. -/
def SameUpload (w u : World) : Prop :=
  u.host.imgInfo = w.host.imgInfo ∧ u.host.bytesRemaining = w.host.bytesRemaining

namespace SameUpload
variable {w u v : World}

theorem refl (w : World) : SameUpload w w := ⟨rfl, rfl⟩

theorem trans (h : SameUpload w u) (g : SameUpload u v) : SameUpload w v :=
  ⟨g.1.trans h.1, g.2.trans h.2⟩

theorem of_host (h : u.host = w.host) : SameUpload w u := by
  rw [SameUpload, h]
  exact ⟨rfl, rfl⟩

end SameUpload

section Upload
variable (env : Env) (w : World)

theorem sameUpload_hostTimerErrCheck (call : BmErr × World) :
    SameUpload call.2 (hostTimerErrCheck env call).2 := .of_host (hostTimerErrCheck_host env call)

theorem sameUpload_reqUpdateRun : SameUpload w (sHostReqUpdateRun env w).2 := by
  have hretry : SameUpload w (w.withHost { w.host with ackRetryNum :=
      (w.host.ackRetryNum + 1) % 2 ^ 8 }) :=
    ⟨rfl, rfl⟩
  unfold sHostReqUpdateRun
  dsimp only
  split
  · split
    · exact .of_host (by simp)
    · split
      · split <;> exact .of_host (by simp)
      · exact .of_host rfl
  · split
    · exact hretry.trans (.of_host (by simp))
    · refine SameUpload.trans ?_ (sameUpload_hostTimerErrCheck env _)
      exact hretry.trans (.of_host (by simp))
  · exact .of_host (by simp)
  · exact .refl w

/-- A host that is not asked for a chunk keeps its context. -/
theorem hostUpdateRun_host (h : w.core.currentEvent.type = .chunkRequest →
    w.core.currentEvent.buf = none) :
    (sHostUpdateRun env w).2.host = w.host := by
  unfold sHostUpdateRun
  dsimp only [bmDfuGetCurrentEvent]
  split
  next ht => rw [h ht]
  · rfl
  · split <;> rfl
  · split
    · simp
    · split
      · rw [setPending_host, hostUpdateComplete]
        split <;> rfl
      · rfl
  · simp
  · rfl

theorem sameUpload_hostUpdateRun (h : w.core.currentEvent.type = .chunkRequest →
    w.core.currentEvent.buf = none) :
    SameUpload w (sHostUpdateRun env w).2 := .of_host (hostUpdateRun_host env w h)

theorem sameUpload_idleRun : SameUpload w (sIdleRun env w).2 := by
  unfold sIdleRun bmDfuHostSetParams
  split
  · exact .of_host (clientOnly_processUpdateRequest env w).host
  · exact ⟨by simp, by simp⟩
  · exact .refl w

theorem afterRun_sameUpload {evt : BmDfuEvent} (h : asksForChunk w evt = false) :
    SameUpload w (w.afterRun env evt) := by
  have hevt : SameUpload w (w.withEvent evt) := ⟨rfl, rfl⟩
  refine hevt.trans ?_
  unfold World.afterRun
  cases hs : w.core.currentState with
  | init =>
    simp only [dfuStates, sInitRun]
    split
    · split <;> exact .of_host (by simp)
    · exact .refl _
  | idle => exact sameUpload_idleRun env _
  | error | clientValidating | clientActivating => exact .refl _
  | clientReceiving => exact .of_host (clientOnly_receivingRun env _).host
  | clientRebootReq => exact .of_host (clientOnly_rebootReqRun env _).host
  | clientRebootDone => exact .of_host (clientOnly_updateDoneRun env _).host
  | hostReqUpdate => exact sameUpload_reqUpdateRun env _
  | hostUpdate => exact sameUpload_hostUpdateRun env _ (asksForChunk_eq_false hs h)

theorem onEntry_sameUpload (h : w.core.currentState ≠ .hostReqUpdate) :
    SameUpload w (w.onEntry env) := by
  unfold World.onEntry
  cases hs : w.core.currentState with
  | init | idle | clientActivating => exact .of_host rfl
  | error =>
    refine .of_host ?_
    change (sErrorEntry w).2.host = w.host
    unfold sErrorEntry coreUpdateFinish
    dsimp only
    split <;> split <;> simp
  | clientReceiving => exact .of_host (clientOnly_receivingEntry env w).host
  | clientValidating => exact .of_host (clientOnly_validatingEntry env w).host
  | clientRebootReq => exact .of_host (clientOnly_rebootReqEntry env w).host
  | clientRebootDone => exact .of_host (clientOnly_updateDoneEntry env w).host
  | hostReqUpdate => exact absurd hs h
  | hostUpdate => exact .of_host (hostUpdateEntry_host w)

theorem moved_sameUpload (h : w.core.newState ≠ .hostReqUpdate) : SameUpload w (w.moved env) := by
  by_cases hs : w.core.currentState = .hostUpdate
  · have hexit : SameUpload w ((sHostUpdateExit w).2.entering w.core.newState) := by
      unfold sHostUpdateExit
      split <;> exact ⟨rfl, rfl⟩
    rw [moved_eq_of_hostUpdate env hs]
    exact hexit.trans (onEntry_sameUpload env _ h)
  · rw [moved_eq env hs]
    exact onEntry_sameUpload env (w.entering w.core.newState) h

end Upload

/-- The hooks of a host read the image: its own one from the flash, another one from a stream
buffer, which hands over what it holds and is asked for. -/
structure SourcesImage (env : Env) (image : List UInt8) : Prop where
  hostGetChunk : ∀ call off len, off + len ≤ image.length →
    (env.hostGetChunk call (dfuImgStartOffsetBytes + off) len).1 = .ok →
    (env.hostGetChunk call (dfuImgStartOffsetBytes + off) len).2 = (image.drop off).take len
  streamBufferReceive : ∀ call, (env.streamBufferReceive call).1 = .ok →
    2 ^ 16 ≤ (env.streamBufferReceive call).2

/-- A host that has sent `n` chunks of the image. -/
structure AtChunk (image : List UInt8) (n : Nat) (w : World) : Prop where
  size : w.host.imgInfo.imageSize.toNat = image.length
  remaining : w.host.bytesRemaining = image.length - n * w.host.imgInfo.chunkSize.toNat

theorem AtChunk.congr {image : List UInt8} {n : Nat} {w u : World} (h : AtChunk image n w)
    (hsame : SameUpload w u) : AtChunk image n u := by
  obtain ⟨hinfo, hremaining⟩ := hsame
  exact ⟨by rw [hinfo, h.size], by rw [hinfo, hremaining, h.remaining]⟩

section Chunk
variable {env : Env} {image : List UInt8} {n : Nat} {w : World}

theorem AtChunk.payloadLen (h : AtChunk image n w) :
    chunkPayloadLen w.host = (chunkAt image w.host.imgInfo.chunkSize.toNat n).length := by
  rw [chunkPayloadLen, chunkAt_length, h.remaining]
  split <;> omega

theorem AtChunk.length_lt (image : List UInt8) (n : Nat) (w : World) :
    (chunkAt image w.host.imgInfo.chunkSize.toNat n).length < 2 ^ 16 := by
  have hlt := w.host.imgInfo.chunkSize.toNat_lt
  rw [chunkAt_length]
  omega

theorem window_self (f : Nat → UInt8) {bytes : List UInt8} {len : Nat} (h : bytes.length = len) :
    window f bytes 0 len = bytes := by
  rw [window_eq_slice _ _ (by omega), List.drop_zero, ← h, List.take_length]

/-- Where a host reads a chunk that has bytes. -/
theorem AtChunk.offset (h : AtChunk image n w) (hn : n < 2 ^ 16)
    (hsome : (chunkAt image w.host.imgInfo.chunkSize.toNat n).length ≠ 0) :
    (dfuImgStartOffsetBytes + w.host.imgInfo.imageSize.toNat + 2 ^ 32 - w.host.bytesRemaining) %
    2 ^ 32 =
      dfuImgStartOffsetBytes + n * w.host.imgInfo.chunkSize.toNat := by
  have hc := w.host.imgInfo.chunkSize.toNat_lt
  have hmul : n * w.host.imgInfo.chunkSize.toNat ≤ 65535 * 65535 :=
    Nat.mul_le_mul (by omega) (by omega)
  rw [chunkAt_length] at hsome
  rw [h.remaining, h.size, dfuImgStartOffsetBytes]
  omega

/-- The chunk from the flash. -/
theorem AtChunk.fill_internal (hsource : SourcesImage env image) (h : AtChunk image n w)
    (hn : n < 2 ^ 16)
    {chunk : List UInt8} (hchunk : chunkAt image w.host.imgInfo.chunkSize.toNat n = chunk)
    (f : Nat → UInt8)
    {call off : Nat} (hoff : (dfuImgStartOffsetBytes + w.host.imgInfo.imageSize.toNat + 2 ^ 32
      - w.host.bytesRemaining) % 2 ^ 32 = off)
      (hget : (env.hostGetChunk call off chunk.length).1 = .ok) :
    window f (env.hostGetChunk call off chunk.length).2 0 chunk.length = chunk := by
  by_cases hempty : chunk.length = 0
  · rw [hempty, List.eq_nil_of_length_eq_zero hempty]
    rfl
  · rw [h.offset hn (hchunk ▸ hempty)] at hoff
    have hlen : chunk.length = min w.host.imgInfo.chunkSize.toNat
        (image.length - n * w.host.imgInfo.chunkSize.toNat) := by rw [← hchunk, chunkAt_length]
    rw [← hoff] at hget ⊢
    have hbytes := hsource.hostGetChunk _ _ _ (by omega) hget
    have hself : (image.drop (n * w.host.imgInfo.chunkSize.toNat)).take chunk.length = chunk := by
      nth_rewrite 2 [← hchunk]
      rw [chunkAt, List.take_eq_take_iff, List.length_drop]
      omega
    rw [hbytes, hself]
    exact window_self f rfl

/-- The chunk from a stream buffer. -/
theorem fill_stream (hsource : SourcesImage env image) {data chunk : List UInt8}
    (hbegins : chunk <+: data)
    (hlt : chunk.length < 2 ^ 16) {call : Nat} (hreceive : (env.streamBufferReceive call).1 = .ok) :
    (data.take chunk.length).take (env.streamBufferReceive call).2 = chunk := by
  have hroom := hsource.streamBufferReceive call hreceive
  rw [List.take_take, Nat.min_eq_right (by omega), ← List.prefix_iff_eq_take.mp hbegins]

/-- The chunk that a host gets hold of is the next one of the image. -/
theorem AtChunk.fill (hsource : SourcesImage env image) (h : AtChunk image n w) (hn : n < 2 ^ 16)
    (hstream : w.core.internal = false → ∀ data ∈ w.host.dataQueue,
      chunkAt image w.host.imgInfo.chunkSize.toNat n <+: data) {chunk : List UInt8}
    (hchunk : chunkAt image w.host.imgInfo.chunkSize.toNat n = chunk) {sent : Nat}
    {payload : List UInt8} {u : World}
    (hfill : fillChunk env chunk.length w = (.ok, sent, payload, u)) :
    sent = chunk.length ∧ payload = chunk := by
  unfold fillChunk at hfill
  dsimp only at hfill
  split at hfill
  · injection hfill with herr hrest
    injection hrest with hsent hrest
    injection hrest with hpayload hu
    exact ⟨hsent.symm, hpayload ▸ h.fill_internal hsource hn hchunk _ rfl herr⟩
  next hinternal =>
    split at hfill
    next data hdata =>
      injection hfill with herr hrest
      injection hrest with hsent hrest
      injection hrest with hpayload hu
      have hbegins := hstream (by simpa [bmDfuInternal] using hinternal) data (by simp [hdata])
      have hlt := AtChunk.length_lt image n w
      rw [hchunk] at hbegins hlt
      have hgot := fill_stream hsource hbegins hlt herr
      refine ⟨hsent.symm.trans (congrArg List.length hgot), ?_⟩
      rw [← hpayload]
      exact (congrArg (window _ · 0 _) hgot).trans (window_self _ rfl)
    · cases hfill

/-- The outcome of a chunk request: nothing is sent, or the next chunk is. -/
inductive ChunkOutcome (image : List UInt8) (n : Nat) (w u : World) : Prop where
  | nothing (payloads : u.payloads = w.payloads) (same : SameUpload w u)
  | sent (frame : List UInt8) (payloads : u.payloads = w.payloads ++ [frame])
      (carries : Carries frame (chunkAt image w.host.imgInfo.chunkSize.toNat n))
      (imgInfo : u.host.imgInfo = w.host.imgInfo) (next : AtChunk image (n + 1) u)

theorem ChunkOutcome.after {u v : World} (h : ChunkOutcome image n w u)
    (hquiet : Quiet bcmpDFUPayloadMessage u v)
    (hsame : SameUpload u v) : ChunkOutcome image n w v := by
  have hframes : v.payloads = u.payloads := hquiet.framesOf
  cases h with
  | nothing hpayloads hsame' => exact .nothing (hframes.trans hpayloads) (hsame'.trans hsame)
  | sent frame hpayloads hcarries hinfo hnext =>
    exact .sent frame (hframes.trans hpayloads) hcarries (hsame.1.trans hinfo) (hnext.congr hsame)

theorem ChunkOutcome.before {v : World} (h : ChunkOutcome image n v u)
    (hquiet : Quiet bcmpDFUPayloadMessage w v)
    (hsame : SameUpload w v) : ChunkOutcome image n w u := by
  have hframes : v.payloads = w.payloads := hquiet.framesOf
  cases h with
  | nothing hpayloads hsame' => exact .nothing (hpayloads.trans hframes) (hsame.trans hsame')
  | sent frame hpayloads hcarries hinfo hnext =>
    rw [hsame.1] at hcarries
    exact .sent frame (hframes ▸ hpayloads) hcarries (hinfo.trans hsame.1) hnext

theorem fillChunk_sameUpload (env : Env) (len : Nat) (w : World) :
    SameUpload w (fillChunk env len w).2.2.2 := by
  unfold fillChunk
  dsimp only
  split
  · exact .of_host rfl
  · split
    · exact ⟨rfl, rfl⟩
    · exact .refl w

theorem AtChunk.sendChunk (hsource : SourcesImage env image) (h : AtChunk image n w)
    (hn : n < 2 ^ 16)
    (hstream : w.core.internal = false → ∀ data ∈ w.host.dataQueue,
      chunkAt image w.host.imgInfo.chunkSize.toNat n <+: data) (req : List UInt8) :
    ChunkOutcome image n w (bmDfuHostSendChunk env req w).2 := by
  have hmalloc : AtChunk image n (bmMalloc env w).2 := h.congr (.of_host rfl)
  obtain ⟨chunk, hchunk⟩ : ∃ chunk, chunkAt image w.host.imgInfo.chunkSize.toNat n = chunk :=
    ⟨_, rfl⟩
  have hlen : chunkPayloadLen w.host = chunk.length := by rw [h.payloadLen, hchunk]
  have hlt : chunk.length < 2 ^ 16 := hchunk ▸ AtChunk.length_lt image n w
  have hquiet : Quiet bcmpDFUPayloadMessage w
      (fillChunk env chunk.length (bmMalloc env w).2).2.2.2 :=
    Quiet.trans (.emit rfl w) (quiet_fillChunk env _ _)
  have hsame : SameUpload w (fillChunk env chunk.length (bmMalloc env w).2).2.2.2 :=
    fillChunk_sameUpload env chunk.length (bmMalloc env w).2
  unfold bmDfuHostSendChunk bmFree
  dsimp only
  rw [hlen]
  split
  · exact .nothing (Quiet.emit rfl w).framesOf (.of_host rfl)
  · rcases hfill : fillChunk env chunk.length (bmMalloc env w).2 with ⟨err, sent, payload, u⟩
    rw [hfill] at hquiet hsame
    dsimp only at hquiet hsame ⊢
    split
    · refine .nothing (hquiet.trans ?_).framesOf (hsame.trans (.of_host (by simp)))
      exact (quiet_hostError env _ _).trans (.emit rfl _)
    next hok =>
      rw [not_not.mp hok] at hfill
      obtain ⟨rfl, rfl⟩ := hmalloc.fill hsource hn hstream hchunk hfill
      rw [bcmpTx_fst, bcmpTx_snd]
      split
      next htx =>
        let frame := payloadFrame u.host.selfNodeId u.host.clientNodeId payload.length payload
        have hsent : (u.emit (.tx frame .ok)).payloads = w.payloads ++ [frame] := by
          rw [World.payloads, framesOf_tx rfl, hquiet.framesOf]
          rfl
        rw [htx]
        refine .sent frame hsent (hchunk ▸ ⟨hlt, _, _, rfl⟩) hsame.1 ⟨?_, ?_⟩
        · change u.host.imgInfo.imageSize.toNat = _
          rw [hsame.1, h.size]
        · change u.host.bytesRemaining - payload.length = image.length -
            (n + 1) * u.host.imgInfo.chunkSize.toNat
          rw [hsame.1, hsame.2, h.remaining, ← hchunk, chunkAt_length, Nat.add_mul]
          omega
      next htx =>
        refine .nothing (hquiet.trans ?_).framesOf (hsame.trans (.of_host (by simp)))
        refine Quiet.trans ?_ (.emit rfl _)
        refine Quiet.trans (.emit ?_ u) (quiet_hostError env _ _)
        simp [Effect.sends, htx]

theorem AtChunk.hostUpdateRun (hsource : SourcesImage env image) (h : AtChunk image n w)
    (hn : n < 2 ^ 16)
    (hstream : w.core.internal = false → ∀ data ∈ w.host.dataQueue,
      chunkAt image w.host.imgInfo.chunkSize.toNat n <+: data) {buf : BmDfuBuf}
    (he : w.core.currentEvent = { type := .chunkRequest, buf := some buf }) :
    ChunkOutcome image n w (sHostUpdateRun env w).2 := by
  let v := (bmTimerStart env .heartbeat w).2
  have hv : Quiet bcmpDFUPayloadMessage w v := .emit rfl w
  have hat : AtChunk image n v := h.congr (.of_host rfl)
  have hsend : ChunkOutcome image n w (bmDfuHostSendChunk env buf.bytes v).2 :=
    (hat.sendChunk hsource hn hstream buf.bytes).before hv (.of_host rfl)
  unfold sHostUpdateRun
  simp only [bmDfuGetCurrentEvent, he]
  split
  · exact .nothing (hv.trans (quiet_hostError env _ _)).framesOf (.of_host (by simp))
  · refine hsend.after (Quiet.trans (.emit rfl _) (quiet_hostTimerErrCheck env _)) ?_
    exact SameUpload.trans (.of_host rfl) (sameUpload_hostTimerErrCheck env _)

end Chunk

/-! ## A turn of the host -/

/-- The states of a host in an update. -/
def Uploading (w : World) : Prop := w.core.currentState = .hostReqUpdate ∨
    w.core.currentState = .hostUpdate

/-- What a host has sent are the first chunks of the image, and in an update it stands behind
them. -/
structure HostInv (image : List UInt8) (w : World) : Prop where
  settled : Settled w
  position : Uploading w → AtChunk image w.payloads.length w
  frames : ∀ j frame, w.payloads[j]? = some frame →
    Carries frame (chunkAt image w.host.imgInfo.chunkSize.toNat j)

/-- Nothing is sent, and after the first chunk the host keeps to its update; or a request is
answered. -/
inductive HostStep (env : Env) (image : List UInt8) (w u : World) : Prop where
  | nothing (payloads : u.payloads = w.payloads)
  (info : w.payloads ≠ [] → u.host.imgInfo = w.host.imgInfo)
  | answer (rest : List BmDfuEvent) (buf : BmDfuBuf) (frame : List UInt8)
      (queue : w.queue = { type := .chunkRequest, buf := some buf } :: rest)
      (seq : seqNum env.beyond buf.bytes = w.payloads.length)
      (payloads : u.payloads = w.payloads ++ [frame])
      (carries : Carries frame (chunkAt image w.host.imgInfo.chunkSize.toNat w.payloads.length))
      (info : u.host.imgInfo = w.host.imgInfo)

section Turn
variable {env : Env} {image : List UInt8} {w : World} {evt : BmDfuEvent}

/-- A chunk request and the transition behind it. -/
theorem AtChunk.consume {n : Nat} {buf : BmDfuBuf} (hsource : SourcesImage env image)
    (h : AtChunk image n w)
    (hn : n < 2 ^ 16) (hstream : w.core.internal = false → ∀ data ∈ w.host.dataQueue,
      chunkAt image w.host.imgInfo.chunkSize.toNat n <+: data) (hsettled : Settled w)
    (hs : w.core.currentState = .hostUpdate)
    (he : evt = { type := .chunkRequest, buf := some buf }) :
    ChunkOutcome image n w (Dfu.consume env evt w) := by
  have hevt : AtChunk image n (w.withEvent evt) := h.congr ⟨rfl, rfl⟩
  have hrun : ChunkOutcome image n w (w.afterRun env evt) := by
    rw [World.afterRun, hs]
    exact (hevt.hostUpdateRun hsource hn hstream he).before (.of_log rfl) ⟨rfl, rfl⟩
  obtain ⟨-, ⟨-, hu⟩ | ⟨-, hnew, hu⟩⟩ := consume_cases env evt hsettled
  · rw [hu]
    exact hrun
  · rw [hs] at hnew
    rw [hu]
    refine hrun.after (moved_payloads env _) (moved_sameUpload env _ ?_)
    rintro heq
    rw [heq] at hnew
    simp [nextStates] at hnew

/-- A host that begins takes over the parameters of the update. -/
theorem reqUpdateEntry_upload {buf : BmDfuBuf} (h : w.core.currentEvent.buf = some buf) :
    (sHostReqUpdateEntry env w).2.host.imgInfo = imgInfo env.beyond buf.bytes ∧
      (sHostReqUpdateEntry env w).2.host.bytesRemaining =
      (imgInfo env.beyond buf.bytes).imageSize.toNat := by
  unfold sHostReqUpdateEntry
  simp only [bmDfuGetCurrentEvent, h]
  split <;> exact ⟨by simp, by simp⟩

/-- A host that is not asked for a chunk sends none, and its update changes only when it begins
one. -/
theorem consume_sameUpload (env : Env) (hsettled : Settled w) (hask : asksForChunk w evt = false) :
    Quiet bcmpDFUPayloadMessage w (consume env evt w) ∧
      ((SameUpload w (consume env evt w) ∧ (Uploading (consume env evt w) → Uploading w)) ∨
        ∃ buf, w.core.currentState = .idle ∧ evt = { type := .beginHost, buf := some buf } ∧
          (consume env evt w).host.imgInfo = imgInfo env.beyond buf.bytes ∧
          (consume env evt w).host.bytesRemaining =
            (imgInfo env.beyond buf.bytes).imageSize.toNat) := by
  have hquiet := afterRun_payloads env w hask
  have hsame := afterRun_sameUpload env w hask
  obtain ⟨hstate, ⟨-, hu⟩ | ⟨hpend, hnew, hu⟩⟩ := consume_cases env evt hsettled
  · rw [hu]
    refine ⟨hquiet, .inl ⟨hsame, fun h => ?_⟩⟩
    unfold Uploading at h ⊢
    rwa [hstate] at h
  · rw [hu]
    refine ⟨hquiet.trans (moved_payloads env _), ?_⟩
    by_cases hreq : (w.afterRun env evt).core.newState = .hostReqUpdate
    · -- only an update that begins leads to the state in which the parameters are taken over
      obtain ⟨buf, hidle, hbuf, hcurrent, hentry⟩ :=
        afterRun_toHostReqUpdate hsettled hpend hnew hreq
      refine .inr ⟨buf, hidle, hbuf, ?_⟩
      rw [hentry]
      exact reqUpdateEntry_upload hcurrent
    · refine .inl ⟨hsame.trans (moved_sameUpload env _ hreq), fun h => ?_⟩
      unfold Uploading at h ⊢
      rw [moved_currentState] at h
      rw [h.resolve_left hreq] at hnew
      revert hnew
      cases w.core.currentState <;> decide

/-- The first chunks of the image with one more behind them. -/
theorem carries_append {frames : List (List UInt8)} {frame : List UInt8} {c : Nat}
    (h : ∀ j f, frames[j]? = some f → Carries f (chunkAt image c j))
    (hframe : Carries frame (chunkAt image c frames.length)) :
    ∀ j f, (frames ++ [frame])[j]? = some f → Carries f (chunkAt image c j) := by
  intro j f hj
  rcases Nat.lt_trichotomy j frames.length with hlt | rfl | hgt
  · rw [List.getElem?_append_left hlt] at hj
    exact h j f hj
  · simp at hj
    exact hj ▸ hframe
  · rw [List.getElem?_eq_none (by simp; omega)] at hj
    cases hj

theorem HostInv.of_outcome {u : World} (h : HostInv image w)
    (hat : AtChunk image w.payloads.length w)
    (hsettled : Settled u) (houtcome : ChunkOutcome image w.payloads.length w u) :
    HostInv image u := by
  cases houtcome with
  | nothing hpayloads hsame =>
    refine ⟨hsettled, fun _ => ?_, ?_⟩
    · rw [hpayloads]
      exact hat.congr hsame
    · rw [hpayloads, hsame.1]
      exact h.frames
  | sent frame hpayloads hcarries hinfo hnext =>
    refine ⟨hsettled, fun _ => ?_, ?_⟩
    · rw [hpayloads, List.length_append, List.length_singleton]
      exact hnext
    · rw [hpayloads, hinfo]
      exact carries_append h.frames hcarries

theorem asksForChunk_eq_true (h : asksForChunk w evt = true) :
    w.core.currentState = .hostUpdate ∧ ∃ buf,
    evt = { type := .chunkRequest, buf := some buf } := by
  obtain ⟨type, buf⟩ := evt
  simp only [asksForChunk, Bool.and_eq_true, decide_eq_true_eq, Option.isSome_iff_exists] at h
  obtain ⟨⟨hs, rfl⟩, buf, rfl⟩ := h
  exact ⟨hs, buf, rfl⟩

/-- A turn of an orderly host. -/
theorem HostInv.turn (hsource : SourcesImage env image) (h : HostInv image w)
    (horderly : Exchange.HostOrderly env image w) :
    HostInv image (act env w .turn) ∧ HostStep env image w (act env w .turn) := by
  cases hqueue : w.queue with
  | nil =>
    rw [act_turn_nil env hqueue]
    exact ⟨h, .nothing rfl fun _ => rfl⟩
  | cons evt rest =>
    have hsettled := act_settled env h.settled .turn
    have hhead : w.queue.head? = some evt := by rw [hqueue]; rfl
    rw [act_turn_cons env hqueue] at hsettled ⊢
    have hfree : Quiet bcmpDFUPayloadMessage (consume env evt (w.withQueue rest))
        ((consume env evt (w.withQueue rest)).released evt) := released_seen evt _ fun _ => rfl
    have hfreed : SameUpload (consume env evt (w.withQueue rest))
        ((consume env evt (w.withQueue rest)).released evt) := .of_host (released_host evt _)
    have hrest : Quiet bcmpDFUPayloadMessage w (w.withQueue rest) := .of_log rfl
    cases hask : asksForChunk w evt with
    | true =>
      obtain ⟨hs, buf, rfl⟩ := asksForChunk_eq_true hask
      obtain ⟨hseq, hhas⟩ := (horderly _ hhead buf rfl).1 hask
      have hat := h.position (.inr hs)
      have hn : w.payloads.length < 2 ^ 16 := hseq ▸ UInt16.toNat_lt _
      have hat' : AtChunk image w.payloads.length (w.withQueue rest) := hat.congr ⟨rfl, rfl⟩
      have houtcome := ((hat'.consume hsource hn hhas h.settled hs rfl).before hrest
        ⟨rfl, rfl⟩).after hfree hfreed
      refine ⟨h.of_outcome hat hsettled houtcome, ?_⟩
      cases houtcome with
      | nothing hpayloads hsame => exact .nothing hpayloads fun _ => hsame.1
      | sent frame hpayloads hcarries hinfo _ =>
        exact .answer rest buf frame hqueue hseq hpayloads hcarries hinfo
    | false =>
      obtain ⟨hquiet, hcases⟩ := consume_sameUpload env (w := w.withQueue rest) h.settled hask
      have hpayloads : ((consume env evt (w.withQueue rest)).released evt).payloads = w.payloads :=
        (hrest.trans (hquiet.trans hfree)).framesOf
      rcases hcases with ⟨hsame, hbefore⟩ | ⟨buf, hidle, rfl, hinfo, hremaining⟩
      · have hkept : SameUpload w ((consume env evt (w.withQueue rest)).released evt) :=
          hsame.trans hfreed
        refine ⟨⟨hsettled, fun hafter => ?_, ?_⟩, .nothing hpayloads fun _ => hkept.1⟩
        · rw [Uploading, released_core] at hafter
          rw [hpayloads]
          exact (h.position (hbefore hafter)).congr hkept
        · rw [hpayloads, hkept.1]
          exact h.frames
      · obtain ⟨hnone, hsize⟩ := (horderly _ hhead buf rfl).2 hidle rfl
        refine ⟨⟨hsettled, fun _ => ⟨?_, ?_⟩, ?_⟩, .nothing hpayloads fun hsome =>
          absurd hnone hsome⟩
        · rw [released_host, hinfo, hsize]
        · rw [released_host, hremaining, hsize, hpayloads, hnone]
          simp
        · simp [hpayloads, hnone]

end Turn

/-! ## Outside the event thread -/

/-- The update of the host is as before, and the queue has at most got an event of a kind. -/
structure Enqueues (P : BmDfuEvent → Prop) (w u : World) : Prop where
  upload : SameUpload w u
  queue : u.queue = w.queue ∨ ∃ evt, P evt ∧ u.queue = w.queue ++ [evt]

section Intake
variable {P : BmDfuEvent → Prop} (env : Env) {w u : World}

theorem Enqueues.refl (w : World) : Enqueues P w w := ⟨.refl w, .inl rfl⟩

theorem Enqueues.emit (h : Enqueues P w u) (e : Effect) : Enqueues P w (u.emit e) :=
  ⟨h.upload, h.queue⟩

theorem Enqueues.after_emit {e : Effect} (h : Enqueues P (w.emit e) u) : Enqueues P w u :=
  ⟨h.upload, h.queue⟩

theorem enqueues_queueSend {e : BmDfuEvent} (he : P e) (w : World) :
    Enqueues P w (bmQueueSend e w).2 := by
  unfold bmQueueSend
  split
  · exact ⟨⟨rfl, rfl⟩, .inr ⟨e, he, rfl⟩⟩
  · exact .refl w

/-- The event that a frame makes. -/
def OfFrame (env : Env) (frame : List UInt8) (evt : BmDfuEvent) : Prop :=
  frameEvent (frameType env.beyond frame) = some evt.type ∧
  ∃ ptr, evt.buf = some { ptr := ptr, bytes := frame }

theorem enqueues_frame (frame : List UInt8) (w : World) :
    Enqueues (OfFrame env frame) w (act env w (.frame frame)) := by
  have hmalloc : Enqueues (OfFrame env frame) w (bmMalloc env w).2 := (Enqueues.refl w).emit _
  unfold act dfuCopyAndProcessMessage
  dsimp only
  split
  · split
    · unfold bmDfuProcessMessage bmFree
      dsimp only
      split
      · exact hmalloc.emit _
      · split
        · exact hmalloc.emit _
        · split
          next type htype =>
            have hsend (ptr : Nat) : Enqueues (OfFrame env frame) w (bmQueueSend
                { type := type, buf := some { ptr := ptr, bytes := frame } }
                (bmMalloc env w).2).2 :=
              .after_emit (enqueues_queueSend (P := OfFrame env frame) ⟨htype, ptr, rfl⟩
              (bmMalloc env w).2)
            split
            · exact (hsend _).emit _
            · exact hsend _
          · exact hmalloc
    · exact hmalloc
  · exact .refl w

/-- The events of timers and of the application. -/
def OfNode (evt : BmDfuEvent) : Prop := evt.type ≠ .imageChunk ∧ evt.type ≠ .chunkRequest

instance (evt : BmDfuEvent) : Decidable (OfNode evt) := inferInstanceAs (Decidable (_ ∧ _))

theorem enqueues_refuse (h : Enqueues P w u) (cb : Option UpdateFinishCb) (dest : UInt64) :
    Enqueues P w (match cb with
      | some cb => u.emit (.finishCallback cb false .inProgress dest)
      | none => u) := by
  split
  · exact h.emit _
  · exact h

theorem enqueues_initiateUpdate (info : BmDfuImgInfo) (dest : UInt64) (fn : Option Nat)
    (timeoutMs : Nat)
    (internal : Bool) (w : World) :
    Enqueues OfNode w (bmDfuInitiateUpdate env info dest fn timeoutMs internal w).2 := by
  unfold bmDfuInitiateUpdate bmFree
  dsimp only
  split
  · exact .refl w
  · split
    · exact enqueues_refuse (.refl w) _ dest
    · split
      · exact (Enqueues.refl w).emit _
      · have hsend (buf : BmDfuBuf) :
            Enqueues OfNode w (bmQueueSend { type := .beginHost, buf := some buf }
            (bmMalloc env w).2).2 :=
          .after_emit (enqueues_queueSend (P := OfNode) ⟨by simp, by simp⟩ (bmMalloc env w).2)
        split
        · exact enqueues_refuse ((hsend _).emit _) _ dest
        · exact ⟨(hsend _).upload, (hsend _).queue⟩

/-- The actions of a node other than its turns and what the channel brings. -/
theorem enqueues_local {a : Action} (hturn : a ≠ .turn) (hframe : ∀ frame, a ≠ .frame frame)
    (w : World) :
    Enqueues OfNode w (act env w a) := by
  cases a with
  | frame frame => exact absurd rfl (hframe frame)
  | chunkTimer => exact enqueues_queueSend (e := { type := .chunkTimeout }) (by decide) w
  | ackTimer => exact enqueues_queueSend (e := { type := .ackTimeout }) (by decide) w
  | updateTimer => exact enqueues_queueSend (e := { type := .abort }) (by decide) w
  | heartbeatTimer => exact (Enqueues.refl w).emit _
  | initiateUpdate info dest fn timeoutMs internal =>
    exact enqueues_initiateUpdate env info dest fn timeoutMs internal w
  | queueData data =>
    unfold act bmDfuHostQueueData
    dsimp only
    split
    · exact ⟨⟨rfl, rfl⟩, .inl rfl⟩
    · exact .refl w
  | turn => exact absurd rfl hturn

end Intake

/-! ## The client -/

/-- Whatever the client has asked for on the way is the chunk that it is at in the end. -/
def RequestsAt (w u : World) : Prop := ∀ frame ∈ u.framesOf bcmpDFUPayloadReqMessage,
  frame ∈ w.framesOf bcmpDFUPayloadReqMessage ∨
    ∃ src dst, frame = payloadReqFrame src dst u.client.currentChunk

namespace RequestsAt
variable {w u v : World}

theorem of_quiet (h : Quiet bcmpDFUPayloadReqMessage w u) : RequestsAt w u := by
  intro frame hframe
  rw [h.framesOf] at hframe
  exact .inl hframe

theorem before (h : RequestsAt u v) (hquiet : Quiet bcmpDFUPayloadReqMessage w u) :
    RequestsAt w v := by
  intro frame hframe
  have hcases := h frame hframe
  rwa [hquiet.framesOf] at hcases

theorem after (h : RequestsAt w u) (hquiet : Quiet bcmpDFUPayloadReqMessage u v)
    (hchunk : v.client.currentChunk = u.client.currentChunk) : RequestsAt w v := by
  intro frame hframe
  rw [hquiet.framesOf] at hframe
  rw [hchunk]
  exact h frame hframe

/-- The request itself. -/
theorem reqNextChunk (env : Env) (dst : UInt64) (w : World) :
    RequestsAt w (bmDfuReqNextChunk env dst w.client.currentChunk w) := by
  intro frame hframe
  rw [bmDfuReqNextChunk_eq] at hframe
  cases htx : env.bcmpTx w.log.length == .ok with
  | true =>
    rw [eq_of_beq htx, framesOf_tx rfl, List.mem_append] at hframe
    exact hframe.imp id fun h => ⟨_, _, List.mem_singleton.mp h⟩
  | false =>
    have hquiet : Quiet bcmpDFUPayloadReqMessage w
      (w.emit (.tx (payloadReqFrame w.core.selfNodeId dst
        w.client.currentChunk) (env.bcmpTx w.log.length))) := .emit (by simp [Effect.sends, htx]) w
    rw [hquiet.framesOf] at hframe
    exact .inl hframe

end RequestsAt

section Client
variable (env : Env) (w : World)

theorem nextChunk_requests :
    (clientNextChunk env w).2.client.currentChunk = (w.client.currentChunk + 1) % 2 ^ 16 ∧
      RequestsAt w (clientNextChunk env w).2 := by
  have hcount : Quiet bcmpDFUPayloadReqMessage w (w.withClient { w.client with
      currentChunk := (w.client.currentChunk + 1) % 2 ^ 16, chunkRetryNum := 0 }) :=
      .of_log (withClient_log w _)
  unfold clientNextChunk
  dsimp only
  split
  · refine ⟨by rw [clientTimerErrCheck_client]; rfl, ?_⟩
    refine RequestsAt.after ?_ (quiet_clientTimerErrCheck env _)
      (by rw [clientTimerErrCheck_client])
    refine RequestsAt.after ?_ (.emit rfl _) rfl
    exact (RequestsAt.reqNextChunk env _ _).before hcount
  · have hend := hcount.trans (quiet_processEnd env _)
    have hchunk := (bmDfuProcessEnd_frame env (w.withClient { w.client with
      currentChunk := (w.client.currentChunk + 1) % 2 ^ 16, chunkRetryNum := 0 })).currentChunk
    split
    · exact ⟨by rw [clientError_client]; exact hchunk,
        .of_quiet (hend.trans (quiet_clientError env _ _))⟩
    · exact ⟨by rw [setPending_client]; exact hchunk, .of_quiet (hend.trans (quiet_setPending _ _))⟩

theorem acceptChunk_requests (payload : List UInt8) :
    (clientAcceptChunk env payload w).2.client.currentChunk = (w.client.currentChunk + 1) % 2 ^ 16 ∧
      RequestsAt w (clientAcceptChunk env payload w).2 := by
  have htake : Quiet bcmpDFUPayloadReqMessage w
    (bmDfuProcessPayload env payload (w.withClient { w.client with
      chunkLength := payload.length
      runningCrc16 := crc16Ccitt w.client.runningCrc16 payload })).2 :=
    Quiet.trans (.of_log (withClient_log w _)) (quiet_processPayload env _ _)
  have hchunk := (bmDfuProcessPayload_frame env payload (w.withClient { w.client with
    chunkLength := payload.length
    runningCrc16 := crc16Ccitt w.client.runningCrc16 payload })).currentChunk
  unfold clientAcceptChunk
  dsimp only
  split
  · obtain ⟨hnext, hreq⟩ := nextChunk_requests env (bmDfuClientTransitionToError env .bmFrame
      (bmDfuProcessPayload env payload (w.withClient { w.client with
        chunkLength := payload.length
        runningCrc16 := crc16Ccitt w.client.runningCrc16 payload })).2)
    rw [clientError_client, hchunk] at hnext
    exact ⟨hnext, hreq.before (htake.trans (quiet_clientError env _ _))⟩
  · obtain ⟨hnext, hreq⟩ := nextChunk_requests env
      (bmDfuProcessPayload env payload (w.withClient { w.client with
      chunkLength := payload.length
      runningCrc16 := crc16Ccitt w.client.runningCrc16 payload })).2
    rw [hchunk] at hnext
    exact ⟨hnext, hreq.before htake⟩

variable {env w} {acc : List (List UInt8)}

/-- An event that neither starts the client over nor is accepted. -/
theorem acceptedNext_of_ignored {evt : BmDfuEvent} (hs : w.core.currentState = .clientReceiving)
    (hchunk : evt.type = .imageChunk → evt.buf = none)
    (hstart : evt.type ≠ .receivedUpdateRequest) :
    acceptedNext env w evt acc = acc := by
  have htake : takesPayload env w evt = none := by
    unfold takesPayload
    split
    next buf _ hevt hbuf =>
      rw [hchunk hevt] at hbuf
      cases hbuf
    · rfl
  simp [acceptedNext, htake, takesStart, restarts, hs, hstart]

theorem imageChunk_requests {buf : BmDfuBuf} (hs : w.core.currentState = .clientReceiving)
    (he : w.core.currentEvent = { type := .imageChunk, buf := some buf })
    (hchunk : w.client.currentChunk = acc.length % 2 ^ 16) :
    (sClientReceivingRun env w).2.client.currentChunk =
        (acceptedNext env w w.core.currentEvent acc).length % 2 ^ 16 ∧
      RequestsAt w (sClientReceivingRun env w).2 := by
  have hstop : Quiet bcmpDFUPayloadReqMessage w (bmTimerStop env .chunk w).2 := .emit rfl w
  have hnostart : takesStart env w w.core.currentEvent = false := by simp [takesStart, restarts, he]
  rw [receivingRun_imageChunk he, acceptedNext, hnostart, he]
  split
  next hlong =>
    have hnone : takesPayload env w { type := .imageChunk, buf := some buf } = none := by
      simp [takesPayload, hs, hlong]
    rw [hnone]
    exact ⟨by simpa using hchunk, .of_quiet (.refl w)⟩
  next hshort =>
    split
    next hfails =>
      have hnone : takesPayload env w { type := .imageChunk, buf := some buf } = none := by
        simp [takesPayload, hs, hfails]
      rw [hnone]
      exact ⟨by simpa using hchunk, .of_quiet (hstop.trans (quiet_clientError env _ _))⟩
    next hstopped =>
      have hsome : takesPayload env w { type := .imageChunk, buf := some buf } =
          some (framePayload env.beyond buf.bytes) := by
        simp only [takesPayload, hs]
        rw [if_pos ⟨by omega, not_not.mp hstopped⟩]
      obtain ⟨hnext, hreq⟩ := acceptChunk_requests env (bmTimerStop env .chunk w).2
        (payloadBuf env.beyond buf.bytes (payloadLength env.beyond buf.bytes))
      rw [hsome]
      refine ⟨hnext.trans ?_, hreq.before hstop⟩
      rw [bmTimerStop_snd, emit_client, hchunk]
      simp

theorem chunkTimeout_requests : (clientChunkTimeout env w).2.client.currentChunk =
    w.client.currentChunk ∧
    RequestsAt w (clientChunkTimeout env w).2 := by
  have hretry : Quiet bcmpDFUPayloadReqMessage w (w.withClient { w.client with
      chunkRetryNum := (w.client.chunkRetryNum + 1) % 2 ^ 8 }) := .of_log (withClient_log w _)
  unfold clientChunkTimeout
  dsimp only
  split
  · refine ⟨by simp, .of_quiet ?_⟩
    refine Quiet.trans ?_ (quiet_clientError env _ _)
    exact hretry.trans (quiet_clientAbort (.inr rfl) env _ _)
  · refine ⟨by rw [clientTimerErrCheck_client]; rfl, ?_⟩
    refine RequestsAt.after ?_ (quiet_clientTimerErrCheck env _)
      (by rw [clientTimerErrCheck_client])
    refine RequestsAt.after ?_ (.emit rfl _) rfl
    exact (RequestsAt.reqNextChunk env _ _).before hretry

theorem resync_requests (env : Env) (w : World) : (clientResync env w).2.client.currentChunk = 0 ∧
    RequestsAt w (clientResync env w).2 := by
  unfold clientResync
  dsimp only
  refine ⟨by rw [clientTimerErrCheck_client]; rfl, ?_⟩
  refine RequestsAt.after ?_ (quiet_clientTimerErrCheck env _) (by rw [clientTimerErrCheck_client])
  refine RequestsAt.after ?_ (.emit rfl _) rfl
  refine (RequestsAt.reqNextChunk env _ _).before ?_
  exact (quiet_sendAck (.inr rfl) env _ _ _ _).trans (.of_log (withClient_log _ _))

theorem receivingEntry_requests (env : Env) (w : World) :
    (sClientReceivingEntry env w).2.client.currentChunk = 0 ∧
    RequestsAt w (sClientReceivingEntry env w).2 := by
  unfold sClientReceivingEntry
  dsimp only
  refine ⟨rfl, ?_⟩
  refine RequestsAt.after ?_ (.emit rfl _) rfl
  exact (RequestsAt.reqNextChunk env _ _).before (.of_log (withClient_log w _))

/-- In Receiving the client is at the chunk behind the accepted ones, and asks for no other. -/
theorem receivingRun_requests (env : Env) {w : World} (hs : w.core.currentState = .clientReceiving)
    (hchunk : w.client.currentChunk = acc.length % 2 ^ 16) :
    (sClientReceivingRun env w).2.client.currentChunk =
        (acceptedNext env w w.core.currentEvent acc).length % 2 ^ 16 ∧
      RequestsAt w (sClientReceivingRun env w).2 := by
  have hstop : Quiet bcmpDFUPayloadReqMessage w (bmTimerStop env .chunk w).2 := .emit rfl w
  rcases he : w.core.currentEvent with ⟨type, buf⟩
  cases type with
  | imageChunk =>
    cases buf with
    | none =>
      rw [receivingRun_ignored (by rw [he]; rfl), acceptedNext_of_ignored hs (by simp) (by simp)]
      exact ⟨hchunk, .of_quiet (.refl w)⟩
    | some buf => exact he ▸ imageChunk_requests hs he hchunk
  | chunkTimeout =>
    rw [receivingRun_chunkTimeout he, acceptedNext_of_ignored hs (by simp) (by simp), ← hchunk]
    exact chunkTimeout_requests
  | receivedUpdateRequest =>
    have hstart : takesStart env w { type := .receivedUpdateRequest, buf := buf } =
        decide (env.timerStop w.log.length = .ok) := by simp [takesStart, restarts, hs]
    have htake : takesPayload env w { type := .receivedUpdateRequest, buf := buf } = none := by
      simp [takesPayload, hs]
    rw [receivingRun_updateRequest he, acceptedNext, hstart, htake]
    split
    next hfails =>
      rw [if_neg (by simpa using hfails)]
      exact ⟨by simpa using hchunk, .of_quiet (hstop.trans (quiet_clientError env _ _))⟩
    next hstopped =>
      obtain ⟨hnext, hreq⟩ := resync_requests env (bmTimerStop env .chunk w).2
      rw [if_pos (by simpa using hstopped)]
      exact ⟨hnext, hreq.before hstop⟩
  | heartbeat =>
    rw [receivingRun_heartbeat he, acceptedNext_of_ignored hs (by simp) (by simp), ← hchunk]
    refine ⟨by rw [clientTimerErrCheck_client]; rfl, .of_quiet ?_⟩
    exact Quiet.trans (.emit rfl w) (quiet_clientTimerErrCheck env _)
  | _ =>
    rw [receivingRun_ignored (by rw [he]; rfl), acceptedNext_of_ignored hs (by simp) (by simp)]
    exact ⟨hchunk, .of_quiet (.refl w)⟩

end Client

/-! ## A turn of the client -/

/-- In Receiving the client is at the chunk behind the accepted ones, and it has never asked for a
later one. -/
structure ClientInv (acc : List (List UInt8)) (w : World) : Prop where
  settled : Settled w
  chunk : w.core.currentState = .clientReceiving → w.client.currentChunk = acc.length % 2 ^ 16
  requests : ∀ frame ∈ w.framesOf bcmpDFUPayloadReqMessage, ∃ n ≤ acc.length, AsksFor frame n

section Turn
variable {env : Env} {w u : World} {evt : BmDfuEvent} {acc : List (List UInt8)}

theorem takesStart_congr (hs : u.core.currentState = w.core.currentState) (hlog : u.log = w.log) :
    takesStart env u evt = takesStart env w evt := by
  have haccepts : ∀ buf, AcceptsStart env u buf ↔ AcceptsStart env w buf := fun buf =>
    ⟨AcceptsStart.congr hlog.symm, AcceptsStart.congr hlog⟩
  simp only [takesStart, restarts, hs, hlog, haccepts]

theorem acceptedNext_congr (hs : u.core.currentState = w.core.currentState) (hlog : u.log = w.log) :
    acceptedNext env u evt acc = acceptedNext env w evt acc := by
  have htake : takesPayload env u evt = takesPayload env w evt := by
    rw [takesPayload, takesPayload, hs, hlog]
  rw [acceptedNext, acceptedNext, takesStart_congr hs hlog, htake]

/-- A client that is started only before it has accepted a payload keeps what it has accepted. -/
theorem length_acceptedNext (hstart : takesStart env w evt = true → acc = []) :
    acc.length ≤ (acceptedNext env w evt acc).length := by
  unfold acceptedNext
  split
  next h => simp [hstart h]
  · simp

/-- A client that asks for the chunk behind the accepted ones only. -/
theorem ClientInv.requests_of (h : ClientInv acc w) {next : List (List UInt8)}
    (hle : acc.length ≤ next.length)
    (hreq : RequestsAt w u) (hchunk : u.client.currentChunk = next.length % 2 ^ 16) :
    ∀ frame ∈ u.framesOf bcmpDFUPayloadReqMessage, ∃ n ≤ next.length, AsksFor frame n := by
  intro frame hframe
  rcases hreq frame hframe with hold | ⟨src, dst, rfl⟩
  · obtain ⟨n, hn, hasks⟩ := h.requests frame hold
    exact ⟨n, hn.trans hle, hasks⟩
  · rw [hchunk]
    exact ⟨_, Nat.mod_le _ _, Nat.mod_lt _ (by decide), src, dst, rfl⟩

theorem ClientInv.requests_quiet (h : ClientInv acc w) {next : List (List UInt8)}
    (hle : acc.length ≤ next.length)
    (hquiet : Quiet bcmpDFUPayloadReqMessage w u) :
    ∀ frame ∈ u.framesOf bcmpDFUPayloadReqMessage, ∃ n ≤ next.length, AsksFor frame n := by
  intro frame hframe
  rw [hquiet.framesOf] at hframe
  obtain ⟨n, hn, hasks⟩ := h.requests frame hframe
  exact ⟨n, hn.trans hle, hasks⟩

/-- An event in Receiving. -/
theorem ClientInv.consume_receiving (h : ClientInv acc w)
    (hs : w.core.currentState = .clientReceiving)
    (hstart : takesStart env w evt = true → acc = []) :
    ClientInv (acceptedNext env w evt acc) (consume env evt w) := by
  have hle := length_acceptedNext hstart
  have hrun : w.afterRun env evt = (sClientReceivingRun env (w.withEvent evt)).2 := by
    rw [World.afterRun, hs]
    rfl
  have hsame : acceptedNext env (w.withEvent evt) evt acc = acceptedNext env w evt acc :=
    acceptedNext_congr rfl rfl
  obtain ⟨hchunk, hreq⟩ := receivingRun_requests env (w := w.withEvent evt) hs (h.chunk hs)
  rw [← hrun] at hchunk hreq
  have hchunk' : (w.afterRun env evt).client.currentChunk =
      (acceptedNext env w evt acc).length % 2 ^ 16 :=
    hchunk.trans (by rw [← hsame]; rfl)
  have hbound := h.requests_of hle (hreq.before (.of_log rfl)) hchunk'
  have hsettled := consume_settled env evt h.settled
  obtain ⟨-, ⟨-, hu⟩ | ⟨-, hnew, hu⟩⟩ := consume_cases env evt h.settled
  · rw [hu] at hsettled ⊢
    exact ⟨hsettled, fun _ => hchunk', hbound⟩
  · have hleaves : (w.afterRun env evt).core.newState ≠ .clientReceiving := by
      intro heq
      rw [heq, hs] at hnew
      exact not_mem_nextStates _ hnew
    rw [hu] at hsettled ⊢
    refine ⟨hsettled, fun hrec => absurd ((moved_currentState env _).symm.trans hrec) hleaves, ?_⟩
    rw [(moved_quiet env (w.afterRun env evt) (.inr rfl) fun _ => hleaves).framesOf]
    exact hbound

/-- An event elsewhere. -/
theorem ClientInv.consume_elsewhere (h : ClientInv acc w)
    (hs : w.core.currentState ≠ .clientReceiving)
    (hstart : takesStart env w evt = true → acc = []) :
    ClientInv (acceptedNext env w evt acc) (consume env evt w) := by
  have hle := length_acceptedNext hstart
  have hquiet : Quiet bcmpDFUPayloadReqMessage w (w.afterRun env evt) :=
    afterRun_quiet env w (.inr rfl) (fun heq => absurd heq (by decide)) fun _ => hs
  have hsettled := consume_settled env evt h.settled
  obtain ⟨hstate, ⟨-, hu⟩ | ⟨hpend, hnew, hu⟩⟩ := consume_cases env evt h.settled
  · rw [hu] at hsettled ⊢
    exact ⟨hsettled, fun hrec => absurd (hstate.symm.trans hrec) hs, h.requests_quiet hle hquiet⟩
  · rw [hu] at hsettled ⊢
    by_cases hrec : (w.afterRun env evt).core.newState = .clientReceiving
    · -- the client is started
      rw [hrec] at hnew
      have hidle := eq_idle_of_receiving hnew
      have hrun : w.afterRun env evt = (sIdleRun env (w.withEvent evt)).2 := by
        rw [World.afterRun, hidle]
        rfl
      have hnone : (w.withEvent evt).core.pendingStateChange = false :=
        h.settled.pending_eq_false hidle (by decide)
      obtain ⟨buf, hevt, hacc, -⟩ := idleRun_toReceiving hnone (hrun ▸ hpend) (hrun ▸ hrec)
      have htakes : takesStart env w evt = true := by
        have hevt' : evt = { type := .receivedUpdateRequest, buf := some buf } := hevt
        have hacc' : AcceptsStart env w buf := AcceptsStart.congr (w := w.withEvent evt) rfl hacc
        simp [takesStart, hidle, hevt', hacc']
      have hnext : acceptedNext env w evt acc = [] := by rw [acceptedNext, if_pos htakes]
      rw [moved_eq_entry env (hstate.trans hidle) (by decide) hrec] at hsettled ⊢
      obtain ⟨hchunk, hreq⟩ := receivingEntry_requests env
        ((w.afterRun env evt).entering .clientReceiving)
      have hreq' := hreq.before (hquiet.trans (.of_log rfl))
      refine ⟨hsettled, fun _ => ?_, h.requests_of hle hreq' ?_⟩
      · rw [hnext]
        exact hchunk
      · rw [hnext]
        exact hchunk
    · refine ⟨hsettled, fun heq => absurd ((moved_currentState env _).symm.trans heq) hrec, ?_⟩
      exact h.requests_quiet hle (hquiet.trans (moved_quiet env _ (.inr rfl) fun _ => hrec))

/-- A turn of a client that is started only before it has accepted a payload. -/
theorem ClientInv.turn (h : ClientInv acc w)
    (hstart : ∀ evt ∈ w.queue.head?, takesStart env w evt = true → acc = []) :
    ClientInv (Exchange.acceptedAfter env w acc) (act env w .turn) := by
  unfold Exchange.acceptedAfter
  cases hqueue : w.queue with
  | nil =>
    rw [act_turn_nil env hqueue]
    exact h
  | cons evt rest =>
    have hsame : takesStart env (w.withQueue rest) evt = takesStart env w evt :=
      takesStart_congr rfl rfl
    have hsame' : acceptedNext env (w.withQueue rest) evt acc = acceptedNext env w evt acc :=
      acceptedNext_congr rfl rfl
    have hstart' : takesStart env (w.withQueue rest) evt = true → acc = [] := by
      rw [hsame]
      exact hstart evt (by rw [hqueue]; rfl)
    have hrest : ClientInv acc (w.withQueue rest) := ⟨h.settled, h.chunk, h.requests⟩
    have hconsume : ClientInv (acceptedNext env (w.withQueue rest) evt acc)
        (consume env evt (w.withQueue rest)) := by
      by_cases hs : w.core.currentState = .clientReceiving
      · exact hrest.consume_receiving hs hstart'
      · exact hrest.consume_elsewhere hs hstart'
    rw [hsame'] at hconsume
    rw [act_turn_cons env hqueue]
    have hfree : Quiet bcmpDFUPayloadReqMessage (consume env evt (w.withQueue rest))
        ((consume env evt (w.withQueue rest)).released evt) := released_seen evt _ fun _ => rfl
    refine ⟨?_, ?_, ?_⟩
    · rw [Settled, released_core]
      exact hconsume.settled
    · rw [released_core, released_client]
      exact hconsume.chunk
    · rw [hfree.framesOf]
      exact hconsume.requests

end Turn

/-! ## Queues -/

/-- The Payload frames in the queue. -/
def World.chunks (w : World) : List BmDfuEvent := w.queue.filter (·.type = .imageChunk)

section Queues
variable {env : Env} {P : BmDfuEvent → Prop} {w u : World} {evt : BmDfuEvent}
    {rest : List BmDfuEvent}

theorem turn_queue (hsettled : Settled w) (hqueue : w.queue = evt :: rest) :
    NopsAdded rest (act env w .turn).queue := by
  rw [act_turn_cons env hqueue, released_queue]
  exact (consume_grows env evt (w := w.withQueue rest) hsettled).queue

theorem NopsAdded.chunks {q q' : List BmDfuEvent} (h : NopsAdded q q') :
    q'.filter (·.type = .imageChunk) = q.filter (·.type = .imageChunk) := by
  obtain ⟨n, rfl⟩ := h
  simp [List.filter_append]

theorem turn_chunks (hsettled : Settled w) (hqueue : w.queue = evt :: rest) :
    (act env w .turn).chunks = rest.filter (·.type = .imageChunk) :=
  (turn_queue hsettled hqueue).chunks

theorem turn_mem (hsettled : Settled w) {e : BmDfuEvent} (he : e ∈ (act env w .turn).queue) :
    e ∈ w.queue ∨ e = { type := .none } := by
  cases hqueue : w.queue with
  | nil =>
    rw [act_turn_nil env hqueue, hqueue] at he
    exact .inl he
  | cons evt rest => exact ((turn_queue hsettled hqueue).mem he).imp_left (List.mem_cons_of_mem evt)

theorem Enqueues.mem (h : Enqueues P w u) {e : BmDfuEvent} (he : e ∈ u.queue) : e ∈ w.queue ∨
    P e := by
  rcases h.queue with heq | ⟨evt, hevt, heq⟩
  · exact .inl (heq ▸ he)
  · rw [heq, List.mem_append, List.mem_singleton] at he
    rcases he with he | rfl
    · exact .inl he
    · exact .inr hevt

theorem Enqueues.chunks (h : Enqueues P w u) :
    u.chunks = w.chunks ∨ ∃ e, P e ∧ e.type = .imageChunk ∧ u.chunks = w.chunks ++ [e] := by
  rcases h.queue with heq | ⟨e, he, heq⟩
  · exact .inl (by rw [World.chunks, heq, World.chunks])
  · by_cases htype : e.type = .imageChunk
    · refine .inr ⟨e, he, htype, ?_⟩
      simp [World.chunks, heq, htype]
    · refine .inl ?_
      simp [World.chunks, heq, htype]

theorem Enqueues.chunks_of_node (h : Enqueues OfNode w u) : u.chunks = w.chunks := by
  rcases h.chunks with heq | ⟨e, he, htype, -⟩
  · exact heq
  · exact absurd htype he.1

/-- A frame of a type that was sent. -/
theorem head_of_framesOf {type : UInt8} {frame : List UInt8} (h : frame ∈ w.framesOf type) :
    frame.head? = some type := by
  rw [World.framesOf, List.mem_reverse, List.mem_filterMap] at h
  obtain ⟨e, he, hframe⟩ := h
  have hsends := (List.mem_filter.mp he).2
  cases e with
  | tx sent r =>
    simp only [Effect.sends, Bool.and_eq_true, beq_iff_eq] at hsends
    obtain ⟨rfl, hhead⟩ := hsends
    cases hframe
    exact hhead
  | _ => cases hsends

theorem OfFrame.type_eq {type : UInt8} {frame : List UInt8} (hhead : frame.head? = some type)
    {e : BmDfuEvent}
    (h : OfFrame env frame e) : frameEvent type = some e.type := by
  cases frame with
  | nil => cases hhead
  | cons b bs =>
    cases hhead
    exact h.1

theorem frameEvent_chunkRequest {type : UInt8} (h : frameEvent type = some .chunkRequest) :
    type = bcmpDFUPayloadReqMessage := by
  unfold frameEvent at h
  grind

theorem frameEvent_imageChunk {type : UInt8} (h : frameEvent type = some .imageChunk) :
    type = bcmpDFUPayloadMessage := by
  unfold frameEvent at h
  grind

end Queues

/-! ## Actions outside the event thread -/

section Acts
variable {env : Env} {image : List UInt8} {w : World} {a : Action}

theorem HostInv.acts (h : HostInv image w) (ha : a ≠ .turn) (hsame : SameUpload w (act env w a)) :
    HostInv image (act env w a) ∧ (act env w a).payloads = w.payloads := by
  have hpayloads : (act env w a).payloads = w.payloads := (act_quiet env w (.inl rfl) ha).framesOf
  refine ⟨⟨act_settled env h.settled a, fun hup => ?_, ?_⟩, hpayloads⟩
  · rw [Uploading, (act_outside env w ha).currentState] at hup
    rw [hpayloads]
    exact (h.position hup).congr hsame
  · rw [hpayloads, hsame.1]
    exact h.frames

theorem HostInv.init (image : List UInt8) (id : UInt64) (info : RebootClientUpdateInfo)
    (flash : Nat → UInt8) :
    HostInv image (bmDfuInit id info flash) := by
  refine ⟨?_, ?_, ?_⟩
  · intro hpending
    cases hpending
  · rintro (hs | hs) <;> cases hs
  · intro j frame hj
    cases hj

theorem ClientInv.init (id : UInt64) (info : RebootClientUpdateInfo) (flash : Nat → UInt8) :
    ClientInv [] (bmDfuInit id info flash) := by
  refine ⟨?_, ?_, ?_⟩
  · intro hpending
    cases hpending
  · intro hs
    cases hs
  · intro frame hframe
    cases hframe

theorem ClientInv.acts {acc : List (List UInt8)} (h : ClientInv acc w) (ha : a ≠ .turn) :
    ClientInv acc (act env w a) := by
  have houtside := act_outside env w ha
  refine ⟨act_settled env h.settled a, ?_, ?_⟩
  · rw [houtside.currentState, houtside.client]
    exact h.chunk
  · rw [(act_quiet env w (.inr rfl) ha).framesOf]
    exact h.requests

end Acts

/-! ## The two together -/

namespace Exchange

/-- The payload that waits for the client is the one that it is at, and nothing waits behind it. -/
def Waits (image : List UInt8) (x : Exchange) (chunks : List BmDfuEvent) (delivered : List Nat) :
    Prop :=
  chunks = [] ∨ ∃ evt, chunks = [evt] ∧
    (∀ buf ∈ evt.buf, Carries buf.bytes (chunkAt image x.chunkSize x.accepted.length)) ∧
    x.host.payloads.length = x.accepted.length + 1 ∧ x.accepted.length ∈ delivered

/-- The host is at most one chunk ahead of the client, and a payload that waits for the client is
the one it is at; every payload before has arrived. -/
structure Inv (image : List UInt8) (x : Exchange) : Prop extends Agrees image x where
  host : HostInv image x.host
  client : ClientInv x.accepted x.client
  answered : x.host.payloads = [] → x.answers = []
  behind : x.accepted.length ≤ x.host.payloads.length
  ahead : x.host.payloads.length ≤ x.accepted.length + 1
  asked : ∀ evt ∈ x.host.queue, evt.type = .chunkRequest → ∀ buf ∈ evt.buf,
    ∃ n ≤ x.accepted.length, AsksFor buf.bytes n
  waiting : Waits image x x.client.chunks x.delivered
  arrived : ∀ j < x.accepted.length, j ∈ x.delivered

section Steps
variable {hostEnv clientEnv : Env} {image : List UInt8} {x : Exchange}

/-- Before the first payload there is nothing on the way. -/
theorem Inv.fresh (h : Inv image x) (hnone : x.host.payloads = []) : x.accepted = [] ∧
    x.client.chunks = [] := by
  have hbehind := h.behind
  rw [hnone, List.length_nil] at hbehind
  refine ⟨List.eq_nil_of_length_eq_zero (by omega), ?_⟩
  rcases h.waiting with hchunks | ⟨evt, -, -, hahead, -⟩
  · exact hchunks
  · rw [hnone] at hahead
    cases hahead

/-- The host moves on without a payload. -/
theorem Inv.with_host (h : Inv image x) {host : World} (hhost : HostInv image host)
    (hpayloads : host.payloads = x.host.payloads)
    (hinfo : x.host.payloads ≠ [] → host.host.imgInfo = x.host.host.imgInfo)
    (hasked : ∀ evt ∈ host.queue, evt.type = .chunkRequest → ∀ buf ∈ evt.buf,
      ∃ n ≤ x.accepted.length, AsksFor buf.bytes n) :
    Inv image { x with host := host } := by
  have hkeeps : Agrees image { x with host := host } ∧
      Waits image { x with host := host } x.client.chunks x.delivered := by
    by_cases hnone : x.host.payloads = []
    · obtain ⟨haccepted, hchunks⟩ := h.fresh hnone
      refine ⟨⟨?_, ?_⟩, .inl hchunks⟩
      · simp [haccepted]
      · simp [h.answered hnone]
    · have hsize : chunkSize { x with host := host } = x.chunkSize := by
        rw [chunkSize, hinfo hnone, chunkSize]
      refine ⟨⟨?_, ?_⟩, ?_⟩
      · rw [hsize]
        exact h.accepted
      · rw [hsize]
        exact h.answers
      · rw [Waits, hsize, hpayloads]
        exact h.waiting
  constructor
  · exact hkeeps.1
  · exact hhost
  · exact h.client
  · intro hnone
    exact h.answered (hpayloads ▸ hnone)
  · rw [hpayloads]
    exact h.behind
  · rw [hpayloads]
    exact h.ahead
  · exact hasked
  · exact hkeeps.2
  · exact h.arrived

/-- The host acts outside its event thread. -/
theorem Inv.host_acts (h : Inv image x) {a : Action} (ha : a ≠ .turn)
    (hasked : ∀ evt ∈ (act hostEnv x.host a).queue, evt.type = .chunkRequest → ∀ buf ∈ evt.buf,
      ∃ n ≤ x.accepted.length, AsksFor buf.bytes n)
      (hsame : SameUpload x.host (act hostEnv x.host a)) :
    Inv image { x with host := act hostEnv x.host a } := by
  obtain ⟨hhost, hpayloads⟩ := h.host.acts ha hsame
  exact h.with_host hhost hpayloads (fun _ => hsame.1) hasked

theorem Inv.host_local (h : Inv image x) {a : Action} (hturn : a ≠ .turn)
    (hframe : ∀ frame, a ≠ .frame frame) :
    Inv image { x with host := act hostEnv x.host a } := by
  have henqueues := enqueues_local hostEnv hturn hframe x.host
  refine h.host_acts hturn (fun evt hevt htype => ?_) henqueues.upload
  rcases henqueues.mem hevt with hold | hnew
  · exact h.asked evt hold htype
  · exact absurd htype hnew.2

/-- A frame of the client reaches the host. -/
theorem Inv.to_host (h : Inv image x) {type : UInt8} {frame : List UInt8}
    (hframe : frame ∈ x.client.framesOf type) :
    Inv image { x with host := act hostEnv x.host (.frame frame) } := by
  have henqueues := enqueues_frame hostEnv frame x.host
  refine h.host_acts (by simp) (fun evt hevt htype buf hbuf => ?_) henqueues.upload
  rcases henqueues.mem hevt with hold | hnew
  · exact h.asked evt hold htype buf hbuf
  · have hevent := hnew.type_eq (head_of_framesOf hframe)
    obtain ⟨ptr, hbytes⟩ := hnew.2
    rw [hbytes, Option.mem_some_iff] at hbuf
    subst hbuf
    have hreq := frameEvent_chunkRequest (hevent.trans (congrArg some htype))
    subst hreq
    exact h.client.requests frame hframe

/-- The client moves on without a payload. -/
theorem Inv.with_client (h : Inv image x) {client : World} {delivered : List Nat}
    (hclient : ClientInv x.accepted client) (hwaits : Waits image x client.chunks delivered)
    (harrived : ∀ j < x.accepted.length, j ∈ delivered) :
    Inv image { x with client := client, delivered := delivered } := by
  constructor
  · exact ⟨h.accepted, h.answers⟩
  · exact h.host
  · exact hclient
  · exact h.answered
  · exact h.behind
  · exact h.ahead
  · exact h.asked
  · exact hwaits
  · exact harrived

/-- The client acts outside its event thread, with no payload for it. -/
theorem Inv.client_acts (h : Inv image x) {a : Action} (ha : a ≠ .turn) {delivered : List Nat}
    (hdelivered : ∀ j ∈ x.delivered, j ∈ delivered)
    (hchunks : (act clientEnv x.client a).chunks = x.client.chunks) :
    Inv image { x with client := act clientEnv x.client a, delivered := delivered } := by
  refine h.with_client (h.client.acts ha) ?_ fun j hj => hdelivered j (h.arrived j hj)
  rw [hchunks]
  rcases h.waiting with hnone | ⟨evt, hevt, hcarries, hahead, harrived⟩
  · exact .inl hnone
  · exact .inr ⟨evt, hevt, hcarries, hahead, hdelivered _ harrived⟩

theorem Inv.client_local (h : Inv image x) {a : Action} (hturn : a ≠ .turn)
    (hframe : ∀ frame, a ≠ .frame frame) :
    Inv image { x with client := act clientEnv x.client a } :=
  h.client_acts hturn (fun _ hj => hj)
  (enqueues_local clientEnv hturn hframe x.client).chunks_of_node

/-- A Payload frame reaches the client for the first time. -/
theorem Inv.to_client_payload (h : Inv image x) {n : Nat} {frame : List UInt8}
    (hframe : x.host.payloads[n]? = some frame) (hfirst : n ∉ x.delivered) {evt : BmDfuEvent}
    (hevt : OfFrame clientEnv frame evt)
    (hchunks : (act clientEnv x.client (.frame frame)).chunks = x.client.chunks ++ [evt]) :
    Inv image { x with client := act clientEnv x.client (.frame frame), delivered :=
      n :: x.delivered } := by
  have hlt : n < x.host.payloads.length := (List.getElem?_eq_some_iff.mp hframe).1
  have hahead := h.ahead
  -- all payloads before the one that the client is at have arrived, so this is that one
  have hn : x.accepted.length = n := by
    rcases Nat.lt_trichotomy n x.accepted.length with hbefore | heq | hbehind
    · exact absurd (h.arrived n hbefore) hfirst
    · exact heq.symm
    · omega
  have hnone : x.client.chunks = [] := by
    rcases h.waiting with hnone | ⟨-, -, -, -, harrived⟩
    · exact hnone
    · exact absurd (hn ▸ harrived) hfirst
  have hcarries : Carries frame (chunkAt image x.chunkSize n) := h.host.frames n frame hframe
  obtain ⟨ptr, hbytes⟩ := hevt.2
  refine h.with_client (h.client.acts (by simp)) (.inr ⟨evt, ?_, ?_, by omega, ?_⟩) fun j hj => ?_
  · rw [hchunks, hnone, List.nil_append]
  · intro buf hbuf
    rw [hbytes, Option.mem_some_iff] at hbuf
    rw [hn, ← hbuf]
    exact hcarries
  · rw [hn]
    exact List.mem_cons_self
  · exact List.mem_cons_of_mem n (h.arrived j hj)

/-- A frame of the host reaches the client. -/
theorem Inv.to_client (h : Inv image x) {type : UInt8} {n : Nat} {frame : List UInt8}
    (hframe : (x.host.framesOf type)[n]? = some frame)
    (hfirst : type = bcmpDFUPayloadMessage → n ∉ x.delivered) :
    Inv image { x with
      client := act clientEnv x.client (.frame frame)
      delivered := if type = bcmpDFUPayloadMessage then n :: x.delivered else x.delivered } := by
  have hdelivered : ∀ j ∈ x.delivered, j ∈ if type = bcmpDFUPayloadMessage then n ::
      x.delivered else x.delivered := by
    intro j hj
    split
    · exact List.mem_cons_of_mem n hj
    · exact hj
  rcases (enqueues_frame clientEnv frame x.client).chunks with hsame | ⟨evt, hevt, htype, hchunks⟩
  · exact h.client_acts (by simp) hdelivered hsame
  · have hhead := head_of_framesOf (List.mem_of_getElem? hframe)
    have hpayload := frameEvent_imageChunk ((hevt.type_eq hhead).trans (congrArg some htype))
    subst hpayload
    rw [if_pos rfl]
    exact h.to_client_payload hframe (hfirst rfl) hevt hchunks

theorem answersOf_of_payloads_eq {w : World} (h : (act hostEnv w .turn).payloads = w.payloads) :
    answersOf hostEnv w = [] := by
  unfold answersOf
  split
  · rw [h, List.drop_length, List.map_nil]
  · rfl

theorem answersOf_of_sent {w : World} {buf : BmDfuBuf} {rest : List BmDfuEvent}
    {frame chunk : List UInt8}
    (hqueue : w.queue = { type := .chunkRequest, buf := some buf } :: rest)
    (hpayloads : (act hostEnv w .turn).payloads = w.payloads ++ [frame])
    (hcarries : Carries frame chunk) :
    answersOf hostEnv w = [(seqNum hostEnv.beyond buf.bytes, chunk)] := by
  unfold answersOf
  rw [hqueue, hpayloads, List.drop_left]
  simp [hcarries.framePayload]

/-- A turn of the host. -/
theorem Inv.host_turn (hsource : SourcesImage hostEnv image) (h : Inv image x)
    (horderly : HostOrderly hostEnv image x.host) :
    Inv image { x with
      host := act hostEnv x.host .turn
      answers := x.answers ++ answersOf hostEnv x.host } := by
  obtain ⟨hhost, hstep⟩ := h.host.turn hsource horderly
  have hasked : ∀ evt ∈ (act hostEnv x.host .turn).queue, evt.type = .chunkRequest →
    ∀ buf ∈ evt.buf,
      ∃ n ≤ x.accepted.length, AsksFor buf.bytes n := by
    intro evt hevt htype
    rcases turn_mem h.host.settled hevt with hold | rfl
    · exact h.asked evt hold htype
    · cases htype
  cases hstep with
  | nothing hpayloads hinfo =>
    rw [answersOf_of_payloads_eq hpayloads, List.append_nil]
    exact h.with_host hhost hpayloads hinfo hasked
  | answer rest buf frame hqueue hseq hpayloads hcarries hinfo =>
    -- the client has not asked for more than the chunk it is at, so the host is not ahead
    obtain ⟨n, hn, hasks⟩ := h.asked _ (by rw [hqueue]; exact List.mem_cons_self) rfl buf rfl
    have hcount : x.host.payloads.length = n := hseq.symm.trans (hasks.seqNum hostEnv.beyond)
    have hbehind := h.behind
    have hchunks : x.client.chunks = [] := by
      rcases h.waiting with hnone | ⟨evt, -, -, hahead, -⟩
      · exact hnone
      · omega
    have hsize : ∀ answers, chunkSize { x with host := act hostEnv x.host .turn, answers :=
      answers } =
        x.chunkSize := by
      intro answers
      rw [chunkSize, hinfo, chunkSize]
    have hsent : (act hostEnv x.host .turn).payloads.length = x.host.payloads.length + 1 := by
      rw [hpayloads, List.length_append, List.length_singleton]
    rw [answersOf_of_sent hqueue hpayloads hcarries, hseq]
    constructor
    · constructor
      · rw [hsize]
        exact h.accepted
      · rw [hsize]
        intro answer hanswer
        rcases List.mem_append.mp hanswer with hold | hnew
        · exact h.answers answer hold
        · rw [List.mem_singleton.mp hnew, chunkSize]
    · exact hhost
    · exact h.client
    · intro hnone
      rw [hnone] at hsent
      cases hsent
    · rw [hsent]
      exact hbehind.trans (Nat.le_succ _)
    · rw [hsent]
      change x.host.payloads.length + 1 ≤ x.accepted.length + 1
      omega
    · exact hasked
    · exact .inl hchunks
    · exact h.arrived

theorem takesPayload_eq_some {w : World} {evt : BmDfuEvent} {payload : List UInt8}
    (h : takesPayload clientEnv w evt = some payload) :
    evt.type = .imageChunk ∧ ∃ buf ∈ evt.buf,
    framePayload clientEnv.beyond buf.bytes = payload := by
  unfold takesPayload at h
  split at h
  next buf _ htype hbuf =>
    refine ⟨htype, buf, hbuf, ?_⟩
    split at h
    · exact Option.some.inj h
    · cases h
  · cases h

/-- A client that is started only before it has accepted a payload accepts one more or none. -/
theorem acceptedNext_cases {w : World} {evt : BmDfuEvent} {acc : List (List UInt8)}
    (hstart : takesStart clientEnv w evt = true → acc = []) :
    acceptedNext clientEnv w evt acc = acc ∨ ∃ payload,
    takesPayload clientEnv w evt = some payload ∧
      acceptedNext clientEnv w evt acc = acc ++ [payload] := by
  unfold acceptedNext
  split
  next h => exact .inl (hstart h).symm
  · cases htake : takesPayload clientEnv w evt with
    | none => exact .inl (List.append_nil acc)
    | some payload => exact .inr ⟨payload, rfl, rfl⟩

theorem Waits.tail {w : World} {evt : BmDfuEvent} {rest : List BmDfuEvent} {delivered : List Nat}
    (h : Waits image x w.chunks delivered) (hqueue : w.queue = evt :: rest) :
    Waits image x (rest.filter (·.type = .imageChunk)) delivered := by
  rw [World.chunks, hqueue, List.filter_cons] at h
  split at h
  · rcases h with hnone | ⟨evt', heq, -⟩
    · cases hnone
    · exact .inl (List.cons.inj heq).2
  · exact h

/-- The payload at the head of the queue. -/
theorem Waits.head {w : World} {evt : BmDfuEvent} {rest : List BmDfuEvent} {delivered : List Nat}
    (h : Waits image x w.chunks delivered) (hqueue : w.queue = evt :: rest)
    (htype : evt.type = .imageChunk) :
    rest.filter (·.type = .imageChunk) = [] ∧
      (∀ buf ∈ evt.buf, Carries buf.bytes (chunkAt image x.chunkSize x.accepted.length)) ∧
      x.host.payloads.length = x.accepted.length + 1 ∧ x.accepted.length ∈ delivered := by
  rw [World.chunks, hqueue, List.filter_cons_of_pos (by simp [htype])] at h
  rcases h with hnone | ⟨evt', heq, hrest⟩
  · cases hnone
  · obtain ⟨rfl, hnil⟩ := List.cons.inj heq
    exact ⟨hnil, hrest⟩

/-- The accepted chunks with the next one behind them. -/
theorem chunks_append {acc : List (List UInt8)} {c : Nat}
    (h : ∀ k payload, acc[k]? = some payload → payload = chunkAt image c k) (k : Nat)
    (payload : List UInt8)
    (hk : (acc ++ [chunkAt image c acc.length])[k]? = some payload) :
    payload = chunkAt image c k := by
  rcases Nat.lt_trichotomy k acc.length with hlt | rfl | hgt
  · rw [List.getElem?_append_left hlt] at hk
    exact h k payload hk
  · simp at hk
    exact hk.symm
  · rw [List.getElem?_eq_none (by simp; omega)] at hk
    cases hk

/-- The client accepts the payload that waits for it. -/
theorem Inv.client_takes (h : Inv image x) {client : World} {evt : BmDfuEvent}
    {rest : List BmDfuEvent} (hqueue : x.client.queue = evt :: rest) {payload : List UInt8}
    (htake : takesPayload clientEnv x.client evt = some payload)
    (hclient : ClientInv (x.accepted ++ [payload]) client)
    (hchunks : client.chunks = rest.filter (·.type = .imageChunk)) :
    Inv image { x with client := client, accepted := x.accepted ++ [payload] } := by
  obtain ⟨htype, buf, hbuf, hpayload⟩ := takesPayload_eq_some htake
  obtain ⟨hnone, hcarries, hahead, harrived⟩ := h.waiting.head hqueue htype
  have hchunk : chunkAt image x.chunkSize x.accepted.length = payload :=
    ((hcarries buf hbuf).framePayload clientEnv.beyond).symm.trans hpayload
  have hlen : (x.accepted ++ [payload]).length = x.accepted.length + 1 := by simp
  constructor
  · refine ⟨?_, h.answers⟩
    rw [← hchunk]
    exact chunks_append h.accepted
  · exact h.host
  · exact hclient
  · exact h.answered
  · exact hlen.trans_le hahead.ge
  · exact hahead.le.trans (hlen.ge.trans (Nat.le_succ _))
  · intro e he ht buf hbuf
    obtain ⟨n, hn, hasks⟩ := h.asked e he ht buf hbuf
    exact ⟨n, hn.trans ((Nat.le_succ _).trans hlen.ge), hasks⟩
  · exact .inl (hchunks.trans hnone)
  · intro j hj
    rcases Nat.lt_succ_iff_lt_or_eq.mp (hlen ▸ hj) with hlt | rfl
    · exact h.arrived j hlt
    · exact harrived

/-- A turn of the client. -/
theorem Inv.client_turn (h : Inv image x)
    (hstart : ∀ evt ∈ x.client.queue.head?, takesStart clientEnv x.client evt = true →
      x.accepted = []) :
    Inv image { x with
      client := act clientEnv x.client .turn
      accepted := acceptedAfter clientEnv x.client x.accepted } := by
  have hclient := h.client.turn hstart
  unfold acceptedAfter at hclient ⊢
  cases hqueue : x.client.queue with
  | nil =>
    rw [act_turn_nil clientEnv hqueue]
    exact h
  | cons evt rest =>
    have hchunks : (act clientEnv x.client .turn).chunks = rest.filter (·.type = .imageChunk) :=
      turn_chunks h.client.settled hqueue
    rw [hqueue] at hclient
    dsimp only at hclient ⊢
    rcases acceptedNext_cases (hstart evt (by rw [hqueue]; rfl)) with hsame | ⟨payload,
      htake, hmore⟩
    · rw [hsame] at hclient ⊢
      refine h.with_client hclient ?_ h.arrived
      rw [hchunks]
      exact h.waiting.tail hqueue
    · rw [hmore] at hclient ⊢
      exact h.client_takes hqueue htake hclient hchunks

end Steps

section Runs
variable {hostEnv clientEnv : Env} {image : List UInt8}

theorem Inv.start (image : List UInt8) (hostId clientId : UInt64)
    (hostInfo clientInfo : RebootClientUpdateInfo)
    (hostFlash clientFlash : Nat → UInt8) :
    Inv image (Exchange.start hostId clientId hostInfo clientInfo hostFlash clientFlash) := by
  constructor
  · constructor
    · intro k payload hk
      cases hk
    · intro answer hanswer
      cases hanswer
  · exact .init image hostId hostInfo hostFlash
  · exact .init clientId clientInfo clientFlash
  · exact fun _ => rfl
  · exact Nat.le_refl 0
  · exact Nat.zero_le _
  · intro evt hevt htype
    rw [List.mem_singleton.mp hevt] at htype
    cases htype
  · exact .inl rfl
  · intro j hj
    cases hj

/-- An orderly move. -/
theorem Inv.step (hsource : SourcesImage hostEnv image) {x : Exchange} (h : Inv image x) {m : Move}
    (horderly : Orderly hostEnv clientEnv image x m) :
    Inv image (Exchange.step hostEnv clientEnv x m) := by
  cases m with
  | hostTurn => exact h.host_turn hsource horderly
  | clientTurn => exact h.client_turn horderly
  | ackTimer | heartbeatTimer | updateTimer | initiateUpdate | queueData =>
    exact h.host_local (by simp) (by simp)
  | chunkTimer => exact h.client_local (by simp) (by simp)
  | toClient type n =>
    unfold Exchange.step
    dsimp only
    split
    next frame hframe => exact h.to_client hframe horderly
    · exact h
  | toHost type n =>
    unfold Exchange.step
    dsimp only
    split
    next frame hframe => exact h.to_host (List.mem_of_getElem? hframe)
    · exact h

/-- Over a channel that loses, delays, reorders and repeats frames, and with timers that fire at any
time, the host and the client agree on the chunks of the image along every run of orderly moves. -/
theorem chunks_agree (hsource : SourcesImage hostEnv image) {hostId clientId : UInt64}
    {hostInfo clientInfo : RebootClientUpdateInfo} {hostFlash clientFlash : Nat → UInt8}
    {moves : List Move}
    (horderly : Along (step hostEnv clientEnv) (Orderly hostEnv clientEnv image)
      (start hostId clientId hostInfo clientInfo hostFlash clientFlash) moves) :
    Agrees image (moves.foldl (step hostEnv clientEnv)
      (start hostId clientId hostInfo clientInfo hostFlash clientFlash)) :=
  (foldl_invariant (fun _ _ h hm => h.step hsource hm)
    (Inv.start image hostId clientId hostInfo clientInfo hostFlash clientFlash) horderly).toAgrees

end Runs

/-! ## A transfer of two chunks -/

instance (image : List UInt8) (w : World) : Decidable (HasChunk image w) :=
  inferInstanceAs (Decidable (_ → _))

instance (env : Env) (image : List UInt8) (w : World) : Decidable (HostOrderly env image w) :=
  inferInstanceAs (Decidable (∀ evt ∈ w.queue.head?, ∀ buf ∈ evt.buf, _))

instance (hostEnv clientEnv : Env) (image : List UInt8) (x : Exchange) (m : Move) :
    Decidable (Orderly hostEnv clientEnv image x m) :=
  match m with
  | .hostTurn => inferInstanceAs (Decidable (HostOrderly hostEnv image x.host))
  | .clientTurn => inferInstanceAs (Decidable (∀ evt ∈ x.client.queue.head?, _ → x.accepted = []))
  | .toClient type n => inferInstanceAs (Decidable (type = bcmpDFUPayloadMessage → n ∉ x.delivered))
  | .ackTimer | .heartbeatTimer | .updateTimer | .chunkTimer | .initiateUpdate .. | .queueData
    _ | .toHost .. =>
    inferInstanceAs (Decidable True)

/-- An image of two bytes in two chunks. -/
def twoBytes : List UInt8 := [10, 20]

def twoChunks : BmDfuImgInfo where
  imageSize := 2
  chunkSize := 1
  crc16 := crc16Ccitt 0 twoBytes
  majorVer := 0
  minorVer := 1
  filterKey := 0
  gitSHA := 2

def twoBytesHost : Env := { Env.steady 1 4096 twoBytes with streamBufferReceive := fun _ =>
    (.ok, 2 ^ 16) }

theorem twoBytesHost_sources : SourcesImage twoBytesHost twoBytes := by
  refine ⟨?_, ?_⟩
  · intro call off len _ _
    change (twoBytes.drop (dfuImgStartOffsetBytes + off - dfuImgStartOffsetBytes)).take len = _
    rw [Nat.add_sub_cancel_left]
  · intro call _
    exact Nat.le_refl _

/-- Up to the first payload, which is on its way. -/
def opening : List Move :=
  [.hostTurn, .hostTurn, .clientTurn, .clientTurn, .initiateUpdate twoChunks 8 none 1000 true,
  .hostTurn, .hostTurn,
    .toClient bcmpDFUStartMessage 0, .clientTurn, .clientTurn, .toHost bcmpDFUAckMessage 0,
    .hostTurn, .hostTurn,
    .toHost bcmpDFUPayloadReqMessage 0, .hostTurn]

def runTwoChunks (moves : List Move) : Exchange :=
  (opening ++ moves).foldl (step twoBytesHost (Env.steady 1 4096 []))
    (start 7 8 .zero .zero (fun _ => 0) (fun _ => 0))

/-- Both payloads arrive. -/
def bothArrive : List Move :=
  [.toClient bcmpDFUPayloadMessage 0, .clientTurn, .toHost bcmpDFUPayloadReqMessage 1, .hostTurn,
    .toClient bcmpDFUPayloadMessage 1, .clientTurn]

theorem chunks_agree_two_chunks :
    Agrees twoBytes (runTwoChunks bothArrive) ∧ (runTwoChunks bothArrive).accepted = [[10], [20]] :=
  ⟨chunks_agree twoBytesHost_sources (by decide +kernel), by decide +kernel⟩

/-- The first payload is lost; the client asks for it again. -/
def firstLost : List Move :=
  [.chunkTimer, .clientTurn, .toHost bcmpDFUPayloadReqMessage 1, .hostTurn,
  .toClient bcmpDFUPayloadMessage 1,
    .clientTurn]

/-- The repeated request for the first chunk is answered with the second one, which the client takes
for the first. -/
theorem repeated_request_skips_chunk :
    (runTwoChunks firstLost).answers = [(0, [10]), (0, [20])] ∧
    (runTwoChunks firstLost).accepted = [[20]] ∧
      ¬ Agrees twoBytes (runTwoChunks firstLost) := by
  have hanswers : (runTwoChunks firstLost).answers = [(0, [10]), (0, [20])] := by decide +kernel
  have haccepted : (runTwoChunks firstLost).accepted = [[20]] := by decide +kernel
  have hsize : (runTwoChunks firstLost).chunkSize = 1 := by decide +kernel
  refine ⟨hanswers, haccepted, fun hagrees => ?_⟩
  have hfirst := hagrees.accepted 0 [20] (by rw [haccepted]; rfl)
  rw [hsize] at hfirst
  exact absurd hfirst (by decide)

end Exchange

end BmCore.Dfu
