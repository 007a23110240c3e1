import BmCore.Dfu.Agreement
import BmCore.Dfu.Resources

/-!
# The accounts of a host

A host fills a Payload frame from its flash or from the stream buffer and counts down the bytes that
remain. The length in the frame is written before the source is read, so it is the length that was
asked for. A source that hands over fewer bytes leaves the frame with bytes that were never part of
the image; as long as this does not happen, the payloads of a streamed session are the bytes that
were queued, in their order. -/
namespace BmCore.Dfu
open Library

/-! ## A chunk request -/

/-- What the source of the image hands over for the next chunk: its answer, and the bytes it puts
into the frame. The two calls before it start the heartbeat timer and allocate the frame. -/
def chunkSource (env : Env) (w : World) : BmErr × List UInt8 :=
  let len := chunkPayloadLen w.host
  let call := w.log.length + 2
  if w.core.internal then
    let off := (dfuImgStartOffsetBytes + w.host.imgInfo.imageSize.toNat + 2 ^ 32
      - w.host.bytesRemaining) % 2 ^ 32
    let (err, bytes) := env.hostGetChunk call off len
    (err, bytes.take len)
  else
    match w.host.dataQueue with
    | some data =>
      let (err, avail) := env.streamBufferReceive call
      (err, (data.take len).take avail)
    | none => (.enomem, [])

/-- Every call a chunk request makes up to the transmission succeeds. -/
def answersRequest (env : Env) (w : World) : Bool :=
  env.timerStart w.log.length == .ok && env.malloc (w.log.length + 1) &&
  (chunkSource env w).1 == .ok &&
    env.bcmpTx (w.log.length + 3) == .ok

/-- The answer to a request goes out although the source had less than was asked for. -/
def shortAnswer (env : Env) (w : World) : Bool :=
  answersRequest env w && decide ((chunkSource env w).2.length < chunkPayloadLen w.host)

/-- The account of a chunk request: nothing is sent and nothing is counted, or one Payload frame is
sent whose length is the number of bytes that the source put into it, and that many are counted. -/
def Accounted (env : Env) (bytes : List UInt8) (w u : World) : Prop :=
  (u.payloads = w.payloads ∧ u.host.bytesRemaining = w.host.bytesRemaining) ∨
    ∃ frame, u.payloads = w.payloads ++ [frame] ∧ payloadLength env.beyond frame = bytes.length ∧
      framePayload env.beyond frame = bytes ∧
      u.host.bytesRemaining + bytes.length = w.host.bytesRemaining

theorem chunkPayloadLen_le (h : DfuHostCtx) : chunkPayloadLen h ≤ h.bytesRemaining := by
  unfold chunkPayloadLen
  split <;> omega

theorem chunkPayloadLen_lt (h : DfuHostCtx) : chunkPayloadLen h < 2 ^ 16 := by
  have hsize := h.imgInfo.chunkSize.toNat_lt
  unfold chunkPayloadLen
  split <;> omega

/-- What the source puts into the frame fits it. -/
theorem chunkSource_length_le (env : Env) (w : World) :
    (chunkSource env w).2.length ≤ chunkPayloadLen w.host := by
  unfold chunkSource
  dsimp only
  split
  · simp
  · split
    · simp only [List.length_take]
      omega
    · simp

/-- A source that hands over the whole chunk fills the frame with it. -/
theorem window_of_take (f : Nat → UInt8) {bytes : List UInt8} {len : Nat}
    (h : (bytes.take len).length = len) :
    window f bytes 0 len = bytes.take len := by
  rw [List.length_take] at h
  rw [window_eq_slice f bytes (by omega), List.drop_zero]

/-- A stream buffer that answers has handed over the first bytes that wait in it. -/
theorem chunkSource_stream {env : Env} {w : World} (hint : w.core.internal = false)
    (hok : (chunkSource env w).1 = .ok) :
    ∃ data, w.host.dataQueue = some data ∧ (chunkSource env w).2 <+: data := by
  unfold chunkSource at hok ⊢
  simp only [hint, Bool.false_eq_true, if_false] at hok ⊢
  cases hdata : w.host.dataQueue with
  | some data => exact ⟨data, rfl, (List.take_prefix _ _).trans (List.take_prefix _ _)⟩
  | none => simp [hdata] at hok

/-- The bytes that leave the stream buffer are those the source hands over. -/
structure Drains (env : Env) (w u : World) : Prop where
  internal : w.core.internal = true → u.host.dataQueue = w.host.dataQueue
  stream : w.core.internal = false → ∀ data, w.host.dataQueue = some data →
    ∃ rest, u.host.dataQueue = some rest ∧ (chunkSource env w).2 ++ rest = data

section Fill
variable {env : Env} {w v : World}

theorem fillChunk_answer (hhost : v.host = w.host) (hcore : v.core = w.core)
    (hlog : v.log.length = w.log.length + 2) :
    (fillChunk env (chunkPayloadLen w.host) v).1 = (chunkSource env w).1 := by
  unfold fillChunk chunkSource bmDfuInternal
  simp only [hhost, hcore, hlog]
  split
  · rfl
  · cases w.host.dataQueue <;> rfl

theorem fillChunk_drains (hhost : v.host = w.host) (hcore : v.core = w.core)
    (hlog : v.log.length = w.log.length + 2) :
    Drains env w (fillChunk env (chunkPayloadLen w.host) v).2.2.2 := by
  constructor
  · intro hint
    simp [fillChunk, bmDfuInternal, hcore, hint, hhost]
  · intro hint data hdata
    have hsource : (chunkSource env w).2 =
        (data.take (chunkPayloadLen w.host)).take
        (env.streamBufferReceive (w.log.length + 2)).2 := by
      simp [chunkSource, hint, hdata]
    refine ⟨data.drop (chunkSource env w).2.length, ?_, ?_⟩
    · simp [fillChunk, bmDfuInternal, hcore, hint, hhost, hdata, hlog, hsource]
    · rw [← List.prefix_iff_eq_append, hsource]
      exact (List.take_prefix _ _).trans (List.take_prefix _ _)

/-- The frame and the count of a source that hands over the whole chunk. -/
theorem fillChunk_whole (hhost : v.host = w.host) (hcore : v.core = w.core)
    (hlog : v.log.length = w.log.length + 2)
    (hwhole : (chunkSource env w).2.length = chunkPayloadLen w.host)
    (hok : (chunkSource env w).1 = .ok) :
    (fillChunk env (chunkPayloadLen w.host) v).2.1 = chunkPayloadLen w.host ∧
      (fillChunk env (chunkPayloadLen w.host) v).2.2.1 = (chunkSource env w).2 := by
  unfold fillChunk chunkSource bmDfuInternal at *
  simp only [hhost, hcore, hlog] at *
  split
  next hint =>
    simp only [hint, if_true] at hwhole ⊢
    exact ⟨trivial, window_of_take _ hwhole⟩
  next hint =>
    simp only [hint, Bool.false_eq_true, if_false] at hwhole hok ⊢
    cases hdata : w.host.dataQueue with
    | some data =>
      simp only [hdata] at hwhole ⊢
      exact ⟨hwhole, window_self _ hwhole⟩
    | none => simp [hdata] at hok

theorem fillChunk_log {len : Nat} (hok : (fillChunk env len v).1 = .ok) :
    (fillChunk env len v).2.2.2.log.length = v.log.length + 1 := by
  unfold fillChunk at *
  dsimp only at *
  split
  · rfl
  · split
    · rfl
    · simp_all

end Fill

/-- The node is on its way to the error state. -/
def Failing (u : World) : Prop := u.core.pendingStateChange = true ∧ u.core.newState = .error

/-- What a chunk request leads to. The account of the stream buffer may only be wrong in a session
that is lost. -/
inductive RequestOutcome (env : Env) (lost : World → Prop) (w u : World) : Prop where
  | silent (answers : answersRequest env w = false) (payloads : u.payloads = w.payloads)
      (upload : SameUpload w u) (stream : u.host.dataQueue = w.host.dataQueue ∨ lost u)
  | answered (answers : answersRequest env w = true) (src dst : UInt64) (payload : List UInt8)
      (payloads : u.payloads = w.payloads ++
      [payloadFrame src dst (chunkPayloadLen w.host) payload])
      (info : u.host.imgInfo = w.host.imgInfo) (drains : Drains env w u ∨ lost u)
      (whole : (chunkSource env w).2.length = chunkPayloadLen w.host →
      payload = (chunkSource env w).2 ∧
        u.host.bytesRemaining + chunkPayloadLen w.host = w.host.bytesRemaining)

section Request
variable {env : Env} {w u v : World} {lost gone : World → Prop}

theorem Drains.congr (h : Drains env w u) (hqueue : v.host.dataQueue = u.host.dataQueue) :
    Drains env w v := by
  refine ⟨fun hint => ?_, fun hint => ?_⟩ <;> rw [hqueue]
  · exact h.internal hint
  · exact h.stream hint

/-- What follows a request in the same turn sends no Payload frame. -/
theorem RequestOutcome.after (h : RequestOutcome env lost w u)
    (hquiet : Quiet bcmpDFUPayloadMessage u v)
    (hupload : SameUpload u v) (hstream : v.host.dataQueue = u.host.dataQueue ∨ gone v)
    (hlost : lost u → gone v) : RequestOutcome env gone w v := by
  cases h with
  | silent answers payloads upload stream =>
    refine .silent answers (hquiet.framesOf.trans payloads) (upload.trans hupload) ?_
    rcases hstream with hsame | hgone
    · rw [hsame]
      exact stream.imp_right hlost
    · exact .inr hgone
  | answered answers src dst payload payloads info drains whole =>
    refine .answered answers src dst payload (hquiet.framesOf.trans payloads)
      (hupload.1.trans info) ?_ ?_
    · rcases hstream with hsame | hgone
      · exact drains.imp (·.congr hsame) hlost
      · exact .inr hgone
    · rw [hupload.2]
      exact whole

/-- The event and the queue do not matter to a request. -/
theorem RequestOutcome.before (h : RequestOutcome env lost v u) (hhost : v.host = w.host)
    (hinternal : v.core.internal = w.core.internal) (hlog : v.log = w.log) :
    RequestOutcome env lost w u := by
  have hsource : chunkSource env v = chunkSource env w := by
    simp only [chunkSource, hhost, hinternal, hlog]
  have hanswers : answersRequest env v = answersRequest env w := by
    simp only [answersRequest, hsource, hlog]
  have hpayloads : v.payloads = w.payloads := (Quiet.of_log hlog).framesOf
  cases h with
  | silent answers payloads upload stream =>
    exact .silent (hanswers ▸ answers) (payloads.trans hpayloads) (.trans (.of_host hhost) upload)
      (hhost ▸ stream)
  | answered answers src dst payload payloads info drains whole =>
    rw [hpayloads, hhost] at payloads
    rw [hsource, hhost] at whole
    refine .answered (hanswers ▸ answers) src dst payload payloads
      (info.trans (by rw [hhost])) ?_ whole
    refine drains.imp_left fun d => ⟨fun hint => ?_, fun hint data hdata => ?_⟩
    · rw [d.internal (hinternal.trans hint), hhost]
    · rw [← hsource]
      exact d.stream (hinternal.trans hint) data (hhost ▸ hdata)

theorem failing_hostError (err : BmDfuErr) (w : World) :
    Failing (bmDfuHostTransitionToError env err w) :=
  ⟨by simp, by simp⟩

theorem Failing.hostTimerErrCheck {call : BmErr × World} (h : Failing call.2) :
    Failing (hostTimerErrCheck env call).2 := by
  unfold Dfu.hostTimerErrCheck
  split
  · exact failing_hostError _ _
  · exact h

/-- `bm_dfu_host_send_chunk` behind the start of the heartbeat timer, `v`. -/
theorem sendChunk_outcome (hstart : env.timerStart w.log.length = .ok)
    (hv : v = (bmTimerStart env .heartbeat w).2)
    (req : List UInt8) : RequestOutcome env Failing w (bmDfuHostSendChunk env req v).2 := by
  subst hv
  let m := (bmMalloc env (bmTimerStart env .heartbeat w).2).2
  have hm : Quiet bcmpDFUPayloadMessage w m := Quiet.trans (.emit rfl w) (.emit rfl _)
  have hanswer : (fillChunk env (chunkPayloadLen w.host) m).1 = (chunkSource env w).1 :=
    fillChunk_answer rfl rfl rfl
  have hdrains : Drains env w (fillChunk env (chunkPayloadLen w.host) m).2.2.2 :=
    fillChunk_drains rfl rfl rfl
  have hquiet : Quiet bcmpDFUPayloadMessage w (fillChunk env (chunkPayloadLen w.host) m).2.2.2 :=
    hm.trans (quiet_fillChunk env _ _)
  have hsame : SameUpload w (fillChunk env (chunkPayloadLen w.host) m).2.2.2 :=
    fillChunk_sameUpload env _ m
  have hwhole : (chunkSource env w).2.length = chunkPayloadLen w.host →
    (chunkSource env w).1 = .ok →
      (fillChunk env (chunkPayloadLen w.host) m).2.1 = chunkPayloadLen w.host ∧
        (fillChunk env (chunkPayloadLen w.host) m).2.2.1 = (chunkSource env w).2 :=
        fillChunk_whole rfl rfl rfl
  have hlog : (fillChunk env (chunkPayloadLen w.host) m).1 = .ok →
      (fillChunk env (chunkPayloadLen w.host) m).2.2.2.log.length = w.log.length + 3 :=
      fillChunk_log
  unfold bmDfuHostSendChunk bmFree
  dsimp only
  split
  next hmalloc =>
    have hnone : env.malloc (w.log.length + 1) = false := Bool.not_eq_true _ ▸ hmalloc
    exact .silent (by simp [answersRequest, hnone]) hm.framesOf (.of_host rfl) (.inl rfl)
  next hmalloc =>
    have hsome : env.malloc (w.log.length + 1) = true := not_not.mp hmalloc
    have hlen : chunkPayloadLen (bmTimerStart env .heartbeat w).2.host =
        chunkPayloadLen w.host := rfl
    rw [hlen]
    change RequestOutcome env Failing w
      (if (fillChunk env (chunkPayloadLen w.host) m).1 ≠ .ok then _ else _ : BmErr × World).2
    rcases hfill : fillChunk env (chunkPayloadLen w.host) m with ⟨err, sent, payload, f⟩
    rw [hfill] at hanswer hdrains hquiet hsame hwhole hlog
    dsimp only at hanswer hdrains hquiet hsame hwhole hlog ⊢
    split
    next hfail =>
      rw [hanswer] at hfail
      refine .silent (by simp [answersRequest, hfail]) ?_ (hsame.trans (.of_host (by simp)))
        (.inr ?_)
      · exact (hquiet.trans ((quiet_hostError env _ _).trans (.emit rfl _))).framesOf
      · exact failing_hostError _ f
    next hok =>
      rw [not_not] at hok
      rw [bcmpTx_fst, bcmpTx_snd, hlog hok]
      split
      next htx =>
        have hanswers : answersRequest env w = true := by
          simp [answersRequest, hstart, hsome, ← hanswer, hok, htx]
        let frame := payloadFrame f.host.selfNodeId f.host.clientNodeId
          (chunkPayloadLen w.host) payload
        have hsent : (f.emit (.tx frame .ok)).payloads = w.payloads ++ [frame] := by
          rw [World.payloads, framesOf_tx rfl, hquiet.framesOf]
          rfl
        refine .answered hanswers f.host.selfNodeId f.host.clientNodeId payload ?_ hsame.1 ?_ ?_
        · rw [htx]
          exact hsent
        · exact .inl (hdrains.congr rfl)
        · intro hfull
          obtain ⟨rfl, hpayload⟩ := hwhole hfull (hanswer ▸ hok)
          refine ⟨hpayload, ?_⟩
          change f.host.bytesRemaining - chunkPayloadLen w.host + chunkPayloadLen w.host = _
          rw [hsame.2]
          exact Nat.sub_add_cancel (chunkPayloadLen_le w.host)
      next htx =>
        refine .silent (by simp [answersRequest, htx]) ?_ (hsame.trans (.of_host (by simp)))
          (.inr ?_)
        · refine (hquiet.trans
            (Quiet.trans (.emit ?_ f) ((quiet_hostError env _ _).trans (.emit rfl _)))).framesOf
          simp [Effect.sends, htx]
        · exact failing_hostError _ _

/-- A chunk request in HostUpdate. -/
theorem hostUpdateRun_outcome {buf : BmDfuBuf}
    (he : w.core.currentEvent = { type := .chunkRequest, buf := some buf }) :
    RequestOutcome env Failing w (sHostUpdateRun env w).2 := by
  unfold sHostUpdateRun
  simp only [bmDfuGetCurrentEvent, he]
  split
  next hfail =>
    rw [bmTimerStart_fst] at hfail
    refine .silent (by simp [answersRequest, hfail]) ?_ (.of_host (by simp))
      (.inr (failing_hostError _ _))
    exact (Quiet.trans (.emit rfl w) (quiet_hostError env _ _)).framesOf
  next hok =>
    rw [bmTimerStart_fst, not_not] at hok
    have hsend := sendChunk_outcome hok rfl buf.bytes
    refine hsend.after (Quiet.trans (.emit rfl _) (quiet_hostTimerErrCheck env _)) ?_ (.inl ?_) ?_
    · exact SameUpload.trans (.of_host rfl) (sameUpload_hostTimerErrCheck env _)
    · rw [hostTimerErrCheck_host]
      rfl
    · exact fun h => Failing.hostTimerErrCheck h

/-- A turn of the event thread that takes a chunk request in HostUpdate. -/
theorem turn_outcome {buf : BmDfuBuf} {rest : List BmDfuEvent} (hsettled : Settled w)
    (hs : w.core.currentState = .hostUpdate)
    (hqueue : w.queue = { type := .chunkRequest, buf := some buf } :: rest) :
    RequestOutcome env (¬Uploading ·) w (act env w .turn) := by
  let evt : BmDfuEvent := { type := .chunkRequest, buf := some buf }
  have hrun : RequestOutcome env Failing w ((w.withQueue rest).afterRun env evt) := by
    rw [World.afterRun, show (w.withQueue rest).core.currentState = .hostUpdate from hs]
    have hrequest : RequestOutcome env Failing ((w.withQueue rest).withEvent evt)
        (sHostUpdateRun env ((w.withQueue rest).withEvent evt)).2 := hostUpdateRun_outcome rfl
    exact hrequest.before rfl rfl rfl
  rw [act_turn_cons env hqueue]
  have hfree : Quiet bcmpDFUPayloadMessage (consume env evt (w.withQueue rest))
      ((consume env evt (w.withQueue rest)).released evt) := released_seen evt _ fun _ => rfl
  obtain ⟨-, ⟨hpend, hu⟩ | ⟨-, hnew, hu⟩⟩ := consume_cases env evt (w := w.withQueue rest) hsettled
  · rw [hu] at hfree ⊢
    refine hrun.after hfree (.of_host (released_host evt _)) (.inl (by rw [released_host])) ?_
    rintro ⟨hfail, -⟩
    rw [hpend] at hfail
    cases hfail
  · -- whatever ends the session leaves its states
    have hgone : ¬Uploading ((((w.withQueue rest).afterRun env evt).moved env).released evt) := by
      rw [Uploading, released_core, moved_currentState]
      rw [show (w.withQueue rest).core.currentState = .hostUpdate from hs] at hnew
      revert hnew
      cases ((w.withQueue rest).afterRun env evt).core.newState <;> decide
    rw [hu] at hfree ⊢
    refine hrun.after ((moved_payloads env _).trans hfree) ?_ (.inr hgone) fun _ => hgone
    refine SameUpload.trans (moved_sameUpload env _ ?_) (.of_host (released_host evt _))
    rintro heq
    rw [heq, show (w.withQueue rest).core.currentState = .hostUpdate from hs] at hnew
    simp [nextStates] at hnew

/-- A chunk request is accounted for exactly when its answer is not short. -/
theorem RequestOutcome.accounted_iff (h : RequestOutcome env lost w u) :
    Accounted env (chunkSource env w).2 w u ↔ shortAnswer env w = false := by
  have hle := chunkSource_length_le env w
  cases h with
  | silent answers payloads upload _ =>
    refine ⟨fun _ => by simp [shortAnswer, answers], fun _ => .inl ⟨payloads, upload.2⟩⟩
  | answered answers src dst payload payloads info _ whole =>
    have hlength := payloadLength_payloadFrame env.beyond src dst
      (chunkPayloadLen_lt w.host) payload
    constructor
    · rintro (⟨hsame, -⟩ | ⟨frame, hframe, hlen, -⟩)
      · rw [hsame] at payloads
        simp at payloads
      · rw [payloads, List.append_cancel_left_eq, List.singleton_inj] at hframe
        rw [← hframe, hlength] at hlen
        simp [shortAnswer, answers, hlen]
    · intro hshort
      have hfull : (chunkSource env w).2.length = chunkPayloadLen w.host := by
        simp only [shortAnswer, answers, Bool.true_and, decide_eq_false_iff_not] at hshort
        omega
      obtain ⟨rfl, hremaining⟩ := whole hfull
      refine .inr ⟨_, payloads, hlength.trans hfull.symm, ?_, hfull ▸ hremaining⟩
      rw [framePayload, hlength, ← hfull, payloadBuf_payloadFrame]

end Request

/-! ## Sessions -/

/-- A host and its session: the bytes that the stream buffer has taken since the session began, the
number of Payload frames that were sent before, and where the image comes from. -/
structure Session where
  world : World
  fed : List UInt8
  before : Nat
  streaming : Bool

/-- What `bm_dfu_host_queue_data` puts into the stream buffer. -/
def accepted (env : Env) (w : World) : Action → List UInt8
  | .queueData data => if w.host.dataQueue.isSome then data.take
    (env.streamBufferSend w.log.length).2 else []
  | _ => []

/-- A session begins where HostReqUpdate is entered. -/
def beginsSession (w u : World) : Bool :=
  decide (w.core.currentState ≠ .hostReqUpdate ∧ u.core.currentState = .hostReqUpdate)

namespace Session

/-- The payloads of the session, one behind the other. -/
def sent (env : Env) (x : Session) : List UInt8 :=
  (x.world.payloads.drop x.before).flatMap (framePayload env.beyond)

/-- The session that begins with the step from `w` to `u`. -/
def opened (w u : World) : Session :=
  { world := u, fed := [], before := w.payloads.length, streaming := !u.core.internal }

def step (env : Env) (x : Session) (a : Action) : Session :=
  let u := act env x.world a
  if beginsSession x.world u then opened x.world u
  else { x with world := u, fed := x.fed ++ accepted env x.world a }

def start (w : World) : Session := { world := w, fed := [], before := 0, streaming := false }

/-- The accounts of a session. What is sent and what remains make up the image; in a streamed
session, what is sent and what waits in the stream buffer are the bytes that were queued. -/
structure Balanced (env : Env) (x : Session) : Prop where
  remaining : Uploading x.world →
    x.world.host.bytesRemaining + (x.sent env).length = x.world.host.imgInfo.imageSize.toNat
  waiting : Uploading x.world → x.streaming = true → ∀ data, x.world.host.dataQueue = some data →
    x.sent env ++ data = x.fed
  order : x.streaming = true → x.sent env <+: x.fed

end Session

/-- No answer of this step is short. -/
def wholeChunks (env : Env) (w : World) (a : Action) : Prop :=
  a = .turn → ∀ evt ∈ w.queue.head?, asksForChunk w evt = true → shortAnswer env w = false

instance (env : Env) (w : World) (a : Action) : Decidable (wholeChunks env w a) :=
  inferInstanceAs (Decidable (_ → ∀ evt ∈ w.queue.head?, _))

section Outside
variable {env : Env} {w : World} {a : Action}

/-- The contexts of the core and of the host are kept. -/
def SameContexts (w u : World) : Prop := u.core = w.core ∧ u.host = w.host

theorem sameContexts_queueSend (evt : BmDfuEvent) (w : World) :
    SameContexts w (bmQueueSend evt w).2 := by
  unfold bmQueueSend
  split <;> exact ⟨rfl, rfl⟩

theorem sameContexts_processMessage (buf : BmDfuBuf) (w : World) :
    SameContexts w (bmDfuProcessMessage env buf w) := by
  unfold bmDfuProcessMessage bmFree
  dsimp only
  split
  · exact ⟨rfl, rfl⟩
  · split
    · exact ⟨rfl, rfl⟩
    · split
      · split <;> exact sameContexts_queueSend _ w
      · exact ⟨rfl, rfl⟩

theorem sameContexts_frame (payload : List UInt8) (w : World) :
    SameContexts w (dfuCopyAndProcessMessage env payload w) := by
  unfold dfuCopyAndProcessMessage
  dsimp only
  split
  · split
    · exact sameContexts_processMessage _ (bmMalloc env w).2
    · exact ⟨rfl, rfl⟩
  · exact ⟨rfl, rfl⟩

theorem sameContexts_refuse (cb : Option UpdateFinishCb) (dest : UInt64) (w : World) :
    SameContexts w (match cb with
      | some cb => w.emit (.finishCallback cb false .inProgress dest)
      | none => w) := by
  split <;> exact ⟨rfl, rfl⟩

theorem initiateUpdate_host (info : BmDfuImgInfo) (dest : UInt64) (fn : Option Nat)
    (timeoutMs : Nat)
    (internal : Bool) (w : World) :
    (bmDfuInitiateUpdate env info dest fn timeoutMs internal w).2.host = w.host := by
  unfold bmDfuInitiateUpdate bmFree
  dsimp only
  split
  · rfl
  · split
    · exact (sameContexts_refuse _ dest w).2
    · split
      · rfl
      · split
        · exact (sameContexts_refuse _ dest _).2.trans
            (sameContexts_queueSend _ (bmMalloc env w).2).2
        · exact (sameContexts_queueSend _ (bmMalloc env w).2).2

/-- Outside the event thread only the stream buffer grows. -/
theorem act_host (ha : a ≠ .turn) : (act env w a).host =
    { w.host with dataQueue := w.host.dataQueue.map (· ++ accepted env w a) } := by
  have hsame : accepted env w a = [] → { w.host with
      dataQueue := w.host.dataQueue.map (· ++ accepted env w a) } = w.host := by
    intro hnone
    simp [hnone]
  cases a with
  | frame payload => exact (sameContexts_frame payload w).2.trans (hsame rfl).symm
  | chunkTimer | ackTimer | updateTimer =>
    exact (sameContexts_queueSend _ w).2.trans (hsame rfl).symm
  | heartbeatTimer => exact (hsame rfl).symm
  | initiateUpdate info dest fn timeoutMs internal =>
    exact (initiateUpdate_host info dest fn timeoutMs internal w).trans (hsame rfl).symm
  | queueData data =>
    cases hqueue : w.host.dataQueue with
    | some queued => simp [act, bmDfuHostQueueData, accepted, hqueue]
    | none =>
      rw [hqueue] at hsame
      simp only [act, bmDfuHostQueueData, hqueue]
      exact (hsame (by simp [accepted, hqueue])).symm
  | turn => exact absurd rfl ha

/-- The source of the image is chosen in Idle. -/
theorem act_internal (ha : a ≠ .turn) (hidle : w.core.currentState ≠ .idle) :
    (act env w a).core.internal = w.core.internal := by
  cases a with
  | frame payload => rw [act, (sameContexts_frame payload w).1]
  | chunkTimer | ackTimer | updateTimer =>
    exact congrArg DfuCoreCtx.internal (sameContexts_queueSend _ w).1
  | heartbeatTimer => rfl
  | initiateUpdate info dest fn timeoutMs internal =>
    unfold act bmDfuInitiateUpdate
    dsimp only
    rw [if_pos hidle]
    split
    · rfl
    · exact congrArg DfuCoreCtx.internal (sameContexts_refuse _ dest w).1
  | queueData data =>
    unfold act bmDfuHostQueueData
    dsimp only
    split <;> rfl
  | turn => exact absurd rfl ha

end Outside

section Turn
variable {env : Env} {w : World} {evt : BmDfuEvent} {rest : List BmDfuEvent}

theorem turn_internal (hsettled : Settled w) :
    (act env w .turn).core.internal = w.core.internal := by
  cases hqueue : w.queue with
  | nil => rw [act_turn_nil env hqueue]
  | cons evt rest =>
    rw [act_turn_cons env hqueue, released_core]
    have hrun : ((w.withQueue rest).afterRun env evt).core.internal = w.core.internal :=
      (run_asks env ((w.withQueue rest).withEvent evt)).internal
    obtain ⟨-, ⟨-, hu⟩ | ⟨-, -, hu⟩⟩ := consume_cases env evt (w := w.withQueue rest) hsettled
    · rw [hu, hrun]
    · rw [hu]
      exact (moved_asks env _).internal.trans hrun

/-- A turn that neither begins a session nor answers a request keeps the session it is in. -/
theorem turn_keeps (hsettled : Settled w) (hqueue : w.queue = evt :: rest)
    (hask : asksForChunk w evt = false)
    (hbegins : beginsSession w (act env w .turn) = false) (hup : Uploading (act env w .turn)) :
    Uploading w ∧ SameUpload w (act env w .turn) ∧
    (act env w .turn).host.dataQueue = w.host.dataQueue := by
  let v := w.withQueue rest
  have hsame : SameUpload w (v.afterRun env evt) := afterRun_sameUpload env v hask
  have hstream : (v.afterRun env evt).host.dataQueue = w.host.dataQueue := by
    by_cases hs : w.core.currentState = .hostUpdate
    · rw [World.afterRun, show v.core.currentState = .hostUpdate from hs]
      exact congrArg DfuHostCtx.dataQueue
        (hostUpdateRun_host env (v.withEvent evt) (asksForChunk_eq_false hs hask))
    · exact run_dataQueue env (v.withEvent evt) hs
  rw [act_turn_cons env hqueue] at hbegins hup ⊢
  rw [Uploading, released_core] at hup
  rw [beginsSession, released_core, decide_eq_false_iff_not, not_and] at hbegins
  have hfree : SameUpload (consume env evt v) ((consume env evt v).released evt) :=
    .of_host (released_host evt _)
  rw [released_host]
  obtain ⟨hstate, ⟨-, hu⟩ | ⟨-, hnew, hu⟩⟩ := consume_cases env evt (w := v) hsettled
  · rw [hu] at hup hfree ⊢
    refine ⟨?_, hsame.trans hfree, hstream⟩
    rwa [hstate] at hup
  · rw [hu] at hbegins hup hfree ⊢
    rw [moved_currentState] at hbegins hup
    rcases hup with hreq | hupdate
    · -- HostReqUpdate is entered from Idle, which is where a session begins
      rw [hreq] at hnew
      refine absurd hreq (hbegins ?_)
      intro heq
      rw [show v.core.currentState = .hostReqUpdate from heq] at hnew
      simp [nextStates] at hnew
    · have hs : w.core.currentState = .hostReqUpdate := by
        rw [hupdate, show v.core.currentState = w.core.currentState from rfl] at hnew
        revert hnew
        cases w.core.currentState <;> decide
      have hne : (v.afterRun env evt).core.newState ≠ .hostReqUpdate := by
        rw [hupdate]
        decide
      refine ⟨.inl hs, (hsame.trans (moved_sameUpload env _ hne)).trans hfree, ?_⟩
      rw [moved_dataQueue env hne, hstate, if_neg, hstream]
      rw [show v.core.currentState = .hostReqUpdate from hs]
      decide

/-- The accounts that a session begins with. -/
theorem turn_begins (hsettled : Settled w) (hbegins : beginsSession w (act env w .turn) = true) :
    (act env w .turn).payloads = w.payloads ∧
      (act env w .turn).host.bytesRemaining = (act env w .turn).host.imgInfo.imageSize.toNat ∧
      ((act env w .turn).core.internal = false →
        ∀ data, (act env w .turn).host.dataQueue = some data → data = []) := by
  cases hqueue : w.queue with
  | nil =>
    rw [act_turn_nil env hqueue, beginsSession, decide_eq_true_iff] at hbegins
    exact absurd hbegins.2 hbegins.1
  | cons evt rest =>
    let v := w.withQueue rest
    rw [act_turn_cons env hqueue] at hbegins ⊢
    rw [beginsSession, released_core, decide_eq_true_iff] at hbegins
    obtain ⟨hne, hstate⟩ := hbegins
    obtain ⟨hcur, ⟨-, hu⟩ | ⟨hpend, hnew, hu⟩⟩ := consume_cases env evt (w := v) hsettled
    · rw [hu, hcur] at hstate
      exact absurd hstate hne
    · have hreq : (v.afterRun env evt).core.newState = .hostReqUpdate := by
        rwa [hu, moved_currentState] at hstate
      obtain ⟨buf, -, hevt, hbuf, hentry⟩ := afterRun_toHostReqUpdate
        (w := v) hsettled hpend hnew hreq
      have hask : asksForChunk v evt = false := by simp [asksForChunk, hevt]
      have hquiet : Quiet bcmpDFUPayloadMessage w ((v.afterRun env evt).moved env) :=
        Quiet.trans (afterRun_payloads env v hask) (moved_payloads env _)
      rw [hu, released_host, released_core]
      refine ⟨?_, ?_, fun hint data hdata => ?_⟩
      · exact (hquiet.trans (released_seen evt _ fun _ => rfl)).framesOf
      · rw [hentry, (reqUpdateEntry_upload hbuf).2, (reqUpdateEntry_upload hbuf).1]
      · rw [(moved_asks env _).internal, hreq] at hint
        rw [hentry, reqUpdateEntry_dataQueue hbuf hint] at hdata
        split at hdata
        · exact (Option.some.inj hdata).symm
        · cases hdata

end Turn

/-! ## Runs -/

namespace Session
variable {env : Env} {x : Session} {a : Action} {u : World}

/-- What is known between actions. -/
structure Inv (env : Env) (x : Session) : Prop extends Balanced env x where
  settled : Settled x.world
  source : Uploading x.world → x.world.core.internal = !x.streaming
  before_le : x.before ≤ x.world.payloads.length

/-- The payloads of a session with one more frame. -/
theorem sent_append (h : x.before ≤ x.world.payloads.length) {frame : List UInt8} (fed : List UInt8)
    (hpayloads : u.payloads = x.world.payloads ++ [frame]) :
    sent env { x with world := u, fed := fed } = x.sent env ++ framePayload env.beyond frame := by
  rw [sent, hpayloads, List.drop_append_of_le_length h, List.flatMap_append, List.flatMap_singleton]
  rfl

theorem sent_of_payloads_eq (fed : List UInt8) (hpayloads : u.payloads = x.world.payloads) :
    sent env { x with world := u, fed := fed } = x.sent env := by
  rw [sent, hpayloads]
  rfl

/-- A step that sends nothing and adds to the stream buffer what it adds to the account. -/
theorem Inv.silent (h : Inv env x) (more : List UInt8) (hsettled : Settled u)
    (hpayloads : u.payloads = x.world.payloads)
    (hkeeps : Uploading u → Uploading x.world ∧ SameUpload x.world u ∧
      u.host.dataQueue = x.world.host.dataQueue.map (· ++ more) ∧
      u.core.internal = x.world.core.internal) :
    Inv env { x with world := u, fed := x.fed ++ more } := by
  have hsent : sent env { x with world := u, fed := x.fed ++ more } = x.sent env :=
    sent_of_payloads_eq (x.fed ++ more) hpayloads
  refine ⟨⟨fun hup => ?_, fun hup hstream data hdata => ?_, fun hstream => ?_⟩, hsettled, fun hup =>
    ?_, ?_⟩
  · obtain ⟨hbefore, hsame, -, -⟩ := hkeeps hup
    rw [hsent, hsame.1, hsame.2]
    exact h.remaining hbefore
  · obtain ⟨hbefore, -, hqueue, -⟩ := hkeeps hup
    rw [hqueue, Option.map_eq_some_iff] at hdata
    obtain ⟨waiting, hwaiting, rfl⟩ := hdata
    rw [hsent, ← List.append_assoc, h.waiting hbefore hstream waiting hwaiting]
  · rw [hsent]
    exact (h.order hstream).trans (List.prefix_append _ _)
  · obtain ⟨hbefore, -, -, hinternal⟩ := hkeeps hup
    rw [hinternal]
    exact h.source hbefore
  · rw [hpayloads]
    exact h.before_le

/-- A request that is not answered short. -/
theorem Inv.answer (h : Inv env x) (hup : Uploading x.world) (hsettled : Settled u)
    (hinternal : u.core.internal = x.world.core.internal) (hshort : shortAnswer env x.world = false)
    (hout : RequestOutcome env (¬Uploading ·) x.world u) :
    Inv env { x with world := u, fed := x.fed ++ [] } := by
  cases hout with
  | silent _ payloads upload stream =>
    refine h.silent [] hsettled payloads fun hafter => ⟨hup, upload, ?_, hinternal⟩
    rw [stream.resolve_right (not_not.mpr hafter)]
    simp
  | answered answers src dst payload payloads info drains whole =>
    have hle := chunkSource_length_le env x.world
    have hfull : (chunkSource env x.world).2.length = chunkPayloadLen x.world.host := by
      simp only [shortAnswer, answers, Bool.true_and, decide_eq_false_iff_not] at hshort
      omega
    obtain ⟨rfl, hremaining⟩ := whole hfull
    have hframe : framePayload env.beyond (payloadFrame src dst (chunkPayloadLen x.world.host)
        (chunkSource env x.world).2) = (chunkSource env x.world).2 := by
      rw [framePayload, payloadLength_payloadFrame _ _ _ (chunkPayloadLen_lt _), ← hfull,
        payloadBuf_payloadFrame]
    have hsent : sent env { x with world := u, fed := x.fed ++ [] } = x.sent env ++
        (chunkSource env x.world).2 := by
      rw [sent_append h.before_le (x.fed ++ []) payloads, hframe]
    have hok : (chunkSource env x.world).1 = .ok := by
      simp only [answersRequest, Bool.and_eq_true, beq_iff_eq] at answers
      exact answers.1.2
    refine ⟨⟨fun _ => ?_, fun hafter hstream data hdata => ?_, fun hstream => ?_⟩, hsettled,
      fun _ => ?_, ?_⟩
    · have htotal := h.remaining hup
      rw [hsent, List.length_append, info]
      change u.host.bytesRemaining + _ = _
      omega
    · have hint : x.world.core.internal = false := by rw [h.source hup, hstream]; rfl
      obtain ⟨queued, hqueued, -⟩ := chunkSource_stream hint hok
      obtain ⟨rest, hrest, hsplit⟩ :=
        (drains.resolve_right (not_not.mpr hafter)).stream hint queued hqueued
      obtain rfl : data = rest := Option.some.inj (hdata.symm.trans hrest)
      rw [hsent, List.append_assoc, hsplit, h.waiting hup hstream queued hqueued, List.append_nil]
    · have hint : x.world.core.internal = false := by rw [h.source hup, hstream]; rfl
      obtain ⟨queued, hqueued, hprefix⟩ := chunkSource_stream hint hok
      rw [hsent, List.append_nil, ← h.waiting hup hstream queued hqueued]
      exact (List.prefix_append_right_inj _).mpr hprefix
    · rw [hinternal]
      exact h.source hup
    · have hbefore := h.before_le
      rw [payloads, List.length_append]
      exact hbefore.trans (Nat.le_add_right _ _)

/-- A session begins with balanced accounts. -/
theorem Inv.begins (hsettled : Settled x.world)
    (hbegins : beginsSession x.world (act env x.world .turn) = true) :
    Inv env (.opened x.world (act env x.world .turn)) := by
  obtain ⟨hpayloads, hremaining, hqueue⟩ := turn_begins hsettled hbegins
  have hsent : (opened x.world (act env x.world .turn)).sent env = [] := by
    rw [sent, opened, hpayloads, List.drop_length]
    rfl
  refine ⟨⟨fun _ => ?_, fun _ hstream data hdata => ?_, fun _ => ?_⟩,
    act_settled env hsettled .turn,
    fun _ => ?_, ?_⟩
  · rw [hsent]
    exact hremaining
  · rw [hsent]
    exact hqueue (by simpa [opened] using hstream) data hdata
  · rw [hsent]
    exact List.nil_prefix
  · exact (Bool.not_not _).symm
  · exact hpayloads ▸ le_refl _

/-- One step of the node. -/
theorem Inv.step (h : Inv env x) (ha : wholeChunks env x.world a) : Inv env (x.step env a) := by
  unfold Session.step
  dsimp only
  by_cases hturn : a = .turn
  · subst hturn
    split
    next hbegins => exact Inv.begins h.settled hbegins
    next hbegins =>
      have hsettled := act_settled env h.settled .turn
      have hinternal : (act env x.world .turn).core.internal = x.world.core.internal :=
        turn_internal h.settled
      cases hqueue : x.world.queue with
      | nil =>
        refine h.silent [] hsettled (by rw [act_turn_nil env hqueue]) fun hup => ?_
        rw [act_turn_nil env hqueue] at hup ⊢
        exact ⟨hup, .refl _, by simp, rfl⟩
      | cons evt rest =>
        cases hask : asksForChunk x.world evt with
        | true =>
          obtain ⟨hs, buf, rfl⟩ := asksForChunk_eq_true hask
          have hshort := ha rfl _ (by rw [hqueue]; rfl) hask
          exact h.answer (.inr hs) hsettled hinternal hshort (turn_outcome h.settled hs hqueue)
        | false =>
          have hpayloads : (act env x.world .turn).payloads = x.world.payloads := by
            rw [act_turn_cons env hqueue]
            refine Quiet.framesOf (.trans (u := consume env evt (x.world.withQueue rest)) ?_ ?_)
            · exact (consume_sameUpload env (w := x.world.withQueue rest) h.settled hask).1
            · exact released_seen evt _ fun _ => rfl
          refine h.silent [] hsettled hpayloads fun hup => ?_
          obtain ⟨hbefore, hsame, hstream⟩ :=
            turn_keeps h.settled hqueue hask (Bool.not_eq_true _ ▸ hbegins) hup
          exact ⟨hbefore, hsame, by rw [hstream]; simp, hinternal⟩
  · have hout := act_outside env x.world hturn
    rw [if_neg]
    · refine h.silent _ (act_settled env h.settled a)
        (act_quiet env x.world (.inl rfl) hturn).framesOf fun hup => ?_
      have hbefore : Uploading x.world := by rwa [Uploading, hout.currentState] at hup
      have hhost : (act env x.world a).host = { x.world.host with
          dataQueue := x.world.host.dataQueue.map (· ++ accepted env x.world a) } := act_host hturn
      refine ⟨hbefore, ⟨by rw [hhost], by rw [hhost]⟩, by rw [hhost], act_internal hturn ?_⟩
      rcases hbefore with hs | hs <;> rw [hs] <;> decide
    · rw [beginsSession, hout.currentState, decide_eq_true_iff]
      exact fun hne => hne.1 hne.2

end Session

/-- The accounts of a host. In every run, a chunk request that is handled in HostUpdate is accounted
for exactly when its answer is not short; and as long as none is, the payloads of a streamed session
are the bytes that were queued, from the first on. -/
theorem payload_accounting_iff (env : Env) (self : UInt64) (info : RebootClientUpdateInfo)
    (flash : Nat → UInt8)
    (actions : List Action) :
    (∀ buf rest, (actions.foldl (act env) (bmDfuInit self info flash)).core.currentState =
      .hostUpdate →
      (actions.foldl (act env) (bmDfuInit self info flash)).queue =
        { type := .chunkRequest, buf := some buf } :: rest →
      let w := actions.foldl (act env) (bmDfuInit self info flash)
      (Accounted env (chunkSource env w).2 w (act env w .turn) ↔ shortAnswer env w = false)) ∧
    (Along (act env) (wholeChunks env) (bmDfuInit self info flash) actions →
      (actions.foldl (Session.step env) (.start (bmDfuInit self info flash))).Balanced env) := by
  have hinit : Settled (bmDfuInit self info flash) := by
    intro hpending
    cases hpending
  constructor
  · intro buf rest hs hqueue
    have hsettled : Settled (actions.foldl (act env) (bmDfuInit self info flash)) :=
      List.foldlRecOn actions (act env) hinit fun w hw a _ => act_settled env hw a
    exact (turn_outcome hsettled hs hqueue).accounted_iff
  · intro halong
    have hstart : Session.Inv env (.start (bmDfuInit self info flash)) := by
      have hidle : ¬Uploading (bmDfuInit self info flash) := by simp [Uploading, bmDfuInit]
      refine ⟨⟨fun hup => absurd hup hidle, fun hup => absurd hup hidle, ?_⟩, hinit,
        fun hup => absurd hup hidle, ?_⟩
      · intro hstream
        cases hstream
      · exact Nat.zero_le _
    have hobs : ∀ x a, (Session.step env x a).world = act env x.world a := by
      intro x a
      unfold Session.step
      dsimp only
      split <;> rfl
    exact (foldl_invariant (fun _ _ h ha => Session.Inv.step h ha) hstart
      (along_observer hobs halong)).toBalanced

/-- An image of two bytes in one chunk. -/
def oneChunk : BmDfuImgInfo := { Exchange.twoChunks with chunkSize := 2 }

/-- A host streams two bytes, which are queued before the chunk is asked for. -/
def streamTwoBytes : List Action :=
  [.turn, .turn, .initiateUpdate oneChunk 8 none 1000 false, .turn, .turn, .queueData [10, 20],
    .frame (resultFrame bcmpDFUAckMessage 8 7 1 .none), .turn, .turn,
    .frame (payloadReqFrame 8 7 0)]

/-- The stream buffer hands over one byte at a time. -/
def byteByByte : Env := { Env.steady 1 4096 [] with streamBufferReceive := fun _ => (.ok, 1) }

/-- The session of a host that has answered once. -/
def streamedSession (env : Env) : Session :=
  (streamTwoBytes ++ [Action.turn]).foldl (Session.step env) (.start (bmDfuInit 7 .zero fun _ => 0))

/-- The two bytes go out as they were queued. -/
theorem payload_accounting_streamed :
    (streamedSession Exchange.twoBytesHost).Balanced Exchange.twoBytesHost ∧
      (streamedSession Exchange.twoBytesHost).sent Exchange.twoBytesHost = [10, 20] :=
  ⟨(payload_accounting_iff Exchange.twoBytesHost 7 .zero (fun _ => 0)
  (streamTwoBytes ++ [Action.turn])).2
      (by decide +kernel), by decide +kernel⟩

/-- Of the two bytes one is read. The frame says two, the second of which was never part of the
image, and one byte is counted. -/
theorem short_read_miscounted :
    let w := streamTwoBytes.foldl (act byteByByte) (bmDfuInit 7 .zero fun _ => 0)
    w.core.currentState = .hostUpdate ∧
      w.queue =
      [{ type := .chunkRequest, buf := some { ptr := 13, bytes := payloadReqFrame 8 7 0 } }] ∧
      ¬ Accounted byteByByte (chunkSource byteByByte w).2 w (act byteByByte w .turn) ∧
      (streamedSession byteByByte).sent byteByByte = [10, 0] ∧
      (streamedSession byteByByte).fed = [10, 20] ∧
      (streamedSession byteByByte).world.host.bytesRemaining = 1 := by
  intro w
  have hs : w.core.currentState = .hostUpdate := by decide +kernel
  have hqueue : w.queue =
      [{ type := .chunkRequest, buf := some { ptr := 13, bytes := payloadReqFrame 8 7 0 } }] := by
      decide +kernel
  have hpending : w.core.pendingStateChange = false := by decide +kernel
  have hsettled : Settled w := fun hp => absurd hp (by rw [hpending]; decide)
  have hshort : shortAnswer byteByByte w = true := by decide +kernel
  refine ⟨hs, hqueue, ?_, by decide +kernel, by decide +kernel, by decide +kernel⟩
  rw [(turn_outcome hsettled hs hqueue).accounted_iff, hshort]
  decide

end BmCore.Dfu
