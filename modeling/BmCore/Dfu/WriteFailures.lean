import BmCore.Dfu.Failures

/-!
# Failures while an image is written

A chunk goes through `bm_dfu_process_payload`, and the last one through `bm_dfu_process_end` as
well. A payload that could not be processed asks for the error state and goes on with the rest of
the handler: it requests the next chunk, or, on the last chunk, lets the end of the image overwrite
the request for the error state. -/
namespace BmCore.Dfu
open Library

/-- A chunk is requested of the host. -/
def Effect.isPayloadReq : Effect → Bool
  | .tx frame _ => frameType (fun _ => 0) frame == bcmpDFUPayloadReqMessage
  | _ => false

/-- The call of `bm_dfu_process_payload` that the current event leads to in Receiving: what it
returns, and the client then. -/
def payloadCall (env : Env) (w : World) : Option (Bool × World) :=
  match (bmDfuGetCurrentEvent w).type, (bmDfuGetCurrentEvent w).buf with
  | .imageChunk, some buf =>
    let len := payloadLength env.beyond buf.bytes
    if len > bmDfuMaxChunkSize then none
    else
      let (err, w) := bmTimerStop env .chunk w
      if err ≠ .ok then none
      else
        let payload := payloadBuf env.beyond buf.bytes len
        some (bmDfuProcessPayload env payload (w.withClient { w.client with
          chunkLength := payload.length
          runningCrc16 := crc16Ccitt w.client.runningCrc16 payload }))
  | _, _ => none

/-- The client behind the call: a failure asks for the error state. -/
def afterPayload (env : Env) (call : Bool × World) : World :=
  if call.1 then bmDfuClientTransitionToError env .bmFrame call.2 else call.2

/-- The call of `bm_dfu_process_end` that the current event leads to in Receiving. -/
def endCall (env : Env) (w : World) : Option (Bool × World) :=
  (payloadCall env w).bind fun call =>
    let w := afterPayload env call
    let w := w.withClient { w.client with
      currentChunk := (w.client.currentChunk + 1) % 2 ^ 16
      chunkRetryNum := 0 }
    if w.client.currentChunk < w.client.numChunks then none else some (bmDfuProcessEnd env w)

/-- One of the two calls returns non-zero. -/
def writeFailed (env : Env) (w : World) : Bool :=
  (payloadCall env w).any (·.1) || (endCall env w).any (·.1)

/-- A chunk is processed and cannot be written, and this is forgotten. Only when the last chunk is
empty, and the bytes that wait in the page buffer cannot be written either, does the end of the
image fail as well. -/
def forgetsFailure (env : Env) (w : World) (evt : BmDfuEvent) : Bool :=
  match evt.buf with
  | some buf =>
    let len := payloadLength env.beyond buf.bytes
    let call := w.log.length
    len ≤ bmDfuMaxChunkSize && env.timerStop call == .ok &&
      (len == 0 || (pageFull w len && env.flashAreaWrite (call + 1) != .ok)) &&
      !(len == 0 && !moreChunks w && w.client.imgPageByteCounter != 0 && env.flashAreaWrite
      (call + 2) != .ok)
  | none => false

section Calls
variable {env : Env} {w : World}

theorem seen_clientError (err : BmDfuErr) (w : World) :
    (bmDfuClientTransitionToError env err w).seen Effect.isPayloadReq =
    w.seen Effect.isPayloadReq := by
  simp [World.seen, Effect.isPayloadReq]

theorem seen_payloadReq (src dst : UInt64) (n : Nat) (r : BmErr) (w : World) :
    (w.emit (.tx (payloadReqFrame src dst n) r)).seen Effect.isPayloadReq =
      .tx (payloadReqFrame src dst n) r :: w.seen Effect.isPayloadReq :=
  List.filter_cons_of_pos rfl

theorem seen_timerStart (t : Timer) (w : World) :
    (bmTimerStart env t w).2.seen Effect.isPayloadReq = w.seen Effect.isPayloadReq :=
  List.filter_cons_of_neg Bool.false_ne_true

/-- The handler behind the payload. -/
theorem receivingRun_payloadCall {call : Bool × World} (h : payloadCall env w = some call) :
    (sClientReceivingRun env w).2 = (clientNextChunk env (afterPayload env call)).2 := by
  unfold payloadCall at h
  dsimp only at h
  split at h
  next buf htype hbuf =>
    have he : w.core.currentEvent = { type := .imageChunk, buf := some buf } := by
      cases hevent : w.core.currentEvent
      simp only [bmDfuGetCurrentEvent, hevent] at htype hbuf
      rw [htype, hbuf]
    rw [receivingRun_imageChunk he]
    split at h
    · cases h
    next hlen =>
      rw [if_neg hlen]
      split at h
      · cases h
      next hstop =>
        rw [if_neg (show ¬ env.timerStop w.log.length ≠ .ok from hstop), ← Option.some.inj h]
        rfl
  · cases h

/-- The request for the next chunk. -/
theorem nextChunk_payloadReq (env : Env) (hmore : moreChunks w = true) :
    ((clientNextChunk env w).2.seen Effect.isPayloadReq).length =
    (w.seen Effect.isPayloadReq).length + 1 := by
  have hlt : (w.client.currentChunk + 1) % 2 ^ 16 < w.client.numChunks := by
    simpa [moreChunks] using hmore
  have hcheck : ∀ call : BmErr × World,
      (clientTimerErrCheck env call).2.seen Effect.isPayloadReq =
      call.2.seen Effect.isPayloadReq := by
    intro call
    unfold clientTimerErrCheck
    split
    · exact seen_clientError .aborted call.2
    · rfl
  unfold clientNextChunk
  dsimp only
  split
  · rw [hcheck, seen_timerStart, bmDfuReqNextChunk_eq, seen_payloadReq]
    rfl
  next hge => exact absurd hlt hge

/-- No request at the end of the image. -/
theorem nextChunk_quiet (hlast : moreChunks w = false) :
    (clientNextChunk env w).2.seen Effect.isPayloadReq = w.seen Effect.isPayloadReq := by
  have hge : ¬ (w.client.currentChunk + 1) % 2 ^ 16 < w.client.numChunks := by
    simpa [moreChunks] using hlast
  have hend : ∀ v : World, (bmDfuProcessEnd env v).2.seen Effect.isPayloadReq =
      v.seen Effect.isPayloadReq :=
    fun v => bmDfuProcessEnd_seen (fun _ _ _ => rfl) env v rfl
  unfold clientNextChunk
  dsimp only
  split
  next hlt => exact absurd hlt hge
  · split
    · rw [seen_clientError, hend]
      rfl
    · rw [World.seen, setPending_log]
      exact hend _

/-- The call of the end of the image in the client that the payload has left. -/
theorem endCall_failed {call : Bool × World} (h : payloadCall env w = some call) :
    (endCall env w).any (·.1) = (!moreChunks (afterPayload env call) &&
      ((afterPayload env call).client.imgPageByteCounter != 0 &&
        env.flashAreaWrite (afterPayload env call).log.length != .ok)) := by
  unfold endCall moreChunks
  rw [h, Option.bind_some]
  dsimp only
  split
  next hlt => simp_all
  next hge =>
    rw [Option.any_some, bmDfuProcessEnd_fst]
    simp_all

/-- What the payload leaves: the requests, the chunk counters, and whether it failed. -/
structure PayloadLeft (env : Env) (w : World) (len : Nat) (call : Bool × World) : Prop where
  requests : (afterPayload env call).seen Effect.isPayloadReq = w.seen Effect.isPayloadReq
  core : call.2.core = w.core
  more : moreChunks (afterPayload env call) = moreChunks w
  failed : call.1 = (len == 0 || (pageFull w len && env.flashAreaWrite (w.log.length + 1) != .ok))
  empty : len = 0 → (afterPayload env call).client.imgPageByteCounter =
    w.client.imgPageByteCounter ∧
    (afterPayload env call).log.length = w.log.length + 2
  unwritten : len ≠ 0 → call.1 = true → (afterPayload env call).client.imgPageByteCounter = 0

theorem payloadCall_done (env : Env) {buf : BmDfuBuf}
    (he : w.core.currentEvent = { type := .imageChunk, buf := some buf })
    (hlen : payloadLength env.beyond buf.bytes ≤ bmDfuMaxChunkSize)
    (hstop : env.timerStop w.log.length = .ok)
    (hc : w.client.imgPageByteCounter < bmImgPageLength) :
    ∃ call, payloadCall env w = some call ∧ PayloadLeft env w
    (payloadLength env.beyond buf.bytes) call := by
  let payload := payloadBuf env.beyond buf.bytes (payloadLength env.beyond buf.bytes)
  have hlength : payload.length = payloadLength env.beyond buf.bytes := window_length ..
  let v := (bmTimerStop env .chunk w).2.withClient { w.client with
    chunkLength := payload.length
    runningCrc16 := crc16Ccitt w.client.runningCrc16 payload }
  have hlog : v.log.length = w.log.length + 1 := rfl
  have hseen : v.seen Effect.isPayloadReq = w.seen Effect.isPayloadReq := rfl
  have hcall : payloadCall env w = some (bmDfuProcessPayload env payload v) := by
    unfold payloadCall
    simp only [bmDfuGetCurrentEvent, he]
    rw [if_neg (Nat.not_lt.mpr hlen),
      if_neg (show ¬ (bmTimerStop env .chunk w).1 ≠ .ok from not_not.mpr hstop)]
    rfl
  have hcalls := bmDfuProcessPayload_calls env (w := v) hc (by rw [hlength]; exact hlen)
  have hframe := bmDfuProcessPayload_frame env payload v
  rw [hlength] at hcalls
  refine ⟨_, hcall, ?_⟩
  generalize hr : bmDfuProcessPayload env payload v = r at hcalls hframe
  have hfailed : r.1 = (payloadLength env.beyond buf.bytes == 0 ||
      (pageFull w (payloadLength env.beyond buf.bytes) && env.flashAreaWrite
      (w.log.length + 1) != .ok)) := by
    by_cases hzero : payloadLength env.beyond buf.bytes = 0
    · rw [hcalls.empty hzero, hzero]
      rfl
    · rw [beq_eq_false_iff_ne.mpr hzero, Bool.false_or]
      cases hfull : pageFull w (payloadLength env.beyond buf.bytes) with
      | false => exact (hcalls.fits hzero hfull).1
      | true => exact (hcalls.full hfull).1
  have hafter : (afterPayload env r).client = r.2.client := by
    unfold afterPayload
    split
    · exact clientError_client ..
    · rfl
  refine ⟨?_, ?_, ?_, hfailed, fun hzero => ?_, fun hne hfail => ?_⟩
  · have hpayload : r.2.seen Effect.isPayloadReq = v.seen Effect.isPayloadReq := by
      rw [← hr]
      exact bmDfuProcessPayload_seen (fun _ _ _ => rfl) env v payload
    rw [← hseen, ← hpayload]
    unfold afterPayload
    split
    · exact seen_clientError .bmFrame r.2
    · rfl
  · exact hframe.core
  · unfold moreChunks
    rw [hafter, hframe.currentChunk, hframe.numChunks]
    rfl
  · have hempty := hcalls.empty hzero
    rw [hafter, hempty]
    refine ⟨rfl, ?_⟩
    unfold afterPayload
    rw [if_pos rfl, clientError_log, List.length_cons, hlog]
  · have hfull : pageFull w (payloadLength env.beyond buf.bytes) = true ∧
        env.flashAreaWrite (w.log.length + 1) ≠ .ok := by
      rw [hfail, beq_eq_false_iff_ne.mpr hne] at hfailed
      simpa using hfailed.symm
    rw [hafter, (hcalls.full hfull.1).2.2]
    exact if_neg hfull.2

/-- A frame that is not processed leads to no call. -/
theorem payloadCall_none (env : Env) {buf : BmDfuBuf}
    (he : w.core.currentEvent = { type := .imageChunk, buf := some buf })
    (h : ¬ (payloadLength env.beyond buf.bytes ≤ bmDfuMaxChunkSize ∧
    env.timerStop w.log.length = .ok)) :
    payloadCall env w = none := by
  unfold payloadCall
  simp only [bmDfuGetCurrentEvent, he]
  split
  · rfl
  next hlen =>
    refine if_pos fun hstop => h ⟨Nat.not_lt.mp hlen, hstop⟩

end Calls

/-! ## A turn on a chunk -/

section Turn
variable {env : Env} {w : World} {evt : BmDfuEvent}

/-- What the end of an iteration in Receiving makes of the state the handler has asked for. -/
theorem consume_receiving_moved (hw : Settled w) (hs : w.core.currentState = .clientReceiving)
    (hpending : (sClientReceivingRun env (w.withEvent evt)).2.core.pendingStateChange = true) :
    consume env evt w = (sClientReceivingRun env (w.withEvent evt)).2.moved env := by
  have hafter : w.afterRun env evt = (sClientReceivingRun env (w.withEvent evt)).2 := by
    simp [World.afterRun, hs, dfuStates]
  obtain ⟨-, ⟨hp, -⟩ | ⟨-, -, hu⟩⟩ := consume_cases env evt hw
  · rw [hafter, hpending] at hp
    cases hp
  · rw [hu, hafter]

/-- A failure while the image is written ends in the error state, without a request for another
chunk. -/
def FailureAborts (env : Env) (evt : BmDfuEvent) (w u : World) : Prop :=
  writeFailed env (w.withEvent evt) = true →
    u.core.currentState = .error ∧ u.seen Effect.isPayloadReq = w.seen Effect.isPayloadReq

/-- A chunk in front of the end of the image: the next one is requested whether it was written or
not. -/
theorem failureAborts_more {call : Bool × World} {len : Nat} (hw : Settled w)
    (hs : w.core.currentState = .clientReceiving)
    (hcall : payloadCall env (w.withEvent evt) = some call)
    (hdone : PayloadLeft env (w.withEvent evt) len call) (hmore : moreChunks w = true) :
    FailureAborts env evt w (consume env evt w) ↔ call.1 = false := by
  have hmore' : moreChunks (afterPayload env call) = true := hdone.more.trans hmore
  have hfailed : writeFailed env (w.withEvent evt) = call.1 := by
    rw [writeFailed, endCall_failed hcall, hmore', hcall]
    simp
  have hrequests : (w.seen Effect.isPayloadReq).length <
      ((consume env evt w).seen Effect.isPayloadReq).length := by
    have hrun : w.afterRun env evt = (clientNextChunk env (afterPayload env call)).2 := by
      rw [← receivingRun_payloadCall hcall]
      simp [World.afterRun, hs, dfuStates]
    have hasked := nextChunk_payloadReq env hmore'
    rw [hdone.requests, ← hrun] at hasked
    have hsuffix : w.afterRun env evt = consume env evt w ∨
        (w.afterRun env evt).log <:+ (consume env evt w).log := by
      obtain ⟨-, ⟨-, hu⟩ | ⟨-, -, hu⟩⟩ := consume_cases env evt hw
      · exact .inl hu.symm
      · rw [hu]
        exact .inr (moved_grows env _).log
    have hle : ((w.afterRun env evt).seen Effect.isPayloadReq).length ≤
        ((consume env evt w).seen Effect.isPayloadReq).length := by
      rcases hsuffix with heq | hsuffix
      · rw [heq]
      · exact (hsuffix.filter Effect.isPayloadReq).length_le
    have hsame : (w.withEvent evt).seen Effect.isPayloadReq = w.seen Effect.isPayloadReq := rfl
    rw [hsame] at hasked
    omega
  rw [FailureAborts, hfailed]
  constructor
  · intro haborts
    by_contra hfail
    have hsame := (haborts (Bool.not_eq_false _ ▸ hfail)).2
    rw [hsame] at hrequests
    exact Nat.lt_irrefl _ hrequests
  · intro hok hfail
    rw [hok] at hfail
    cases hfail

/-- The last chunk: the end of the image has the last word. -/
theorem failureAborts_last {call : Bool × World} {len : Nat} (hw : Settled w)
    (hs : w.core.currentState = .clientReceiving)
    (hcall : payloadCall env (w.withEvent evt) = some call)
    (hdone : PayloadLeft env (w.withEvent evt) len call) (hlast : moreChunks w = false) :
    FailureAborts env evt w (consume env evt w) ↔
      (call.1 = true → (endCall env (w.withEvent evt)).any (·.1) = true) := by
  have hlast' : moreChunks (afterPayload env call) = false := hdone.more.trans hlast
  have hcomplete := clientNextChunk_last env hlast'
  have hend := endCall_failed hcall
  rw [hlast', Bool.not_false, Bool.true_and] at hend
  rw [← hend, ← receivingRun_payloadCall hcall] at hcomplete
  have hu := consume_receiving_moved hw hs hcomplete.pending
  have hstate : (consume env evt w).core.currentState =
      if (endCall env (w.withEvent evt)).any (·.1) then .error else .clientValidating := by
    rw [hu, moved_currentState, hcomplete.newState]
  have hfailed : writeFailed env (w.withEvent evt) =
      (call.1 || (endCall env (w.withEvent evt)).any (·.1)) := by
    rw [writeFailed, hcall]
    rfl
  rw [FailureAborts, hfailed, hstate]
  cases hfail : (endCall env (w.withEvent evt)).any (·.1) with
  | false =>
    simp only [Bool.or_false]
    refine forall_congr' fun _ => ?_
    simp
  | true =>
    refine iff_of_true (fun _ => ⟨rfl, ?_⟩) fun _ => rfl
    have hnew : (sClientReceivingRun env (w.withEvent evt)).2.core.newState = .error := by
      rw [hcomplete.newState, hfail]
      rfl
    have hcurrent : (sClientReceivingRun env (w.withEvent evt)).2.core.currentState =
        .clientReceiving := by
      have hkept := (consume_cases env evt hw).1
      simpa [World.afterRun, hs, dfuStates] using hkept
    rw [hu, moved_eq_entry env hcurrent (by decide) hnew]
    refine (errorEntry_seen (fun _ _ _ _ => rfl) _).trans ?_
    refine Eq.trans ?_ hdone.requests
    rw [← nextChunk_quiet hlast', ← receivingRun_payloadCall hcall]
    rfl

/-- One turn on a chunk. -/
theorem failureAborts_iff (env : Env) (hw : Settled w) (hs : w.core.currentState = .clientReceiving)
    (hc : w.client.imgPageByteCounter < bmImgPageLength) (htype : evt.type = .imageChunk) :
    FailureAborts env evt w (consume env evt w) ↔ forgetsFailure env w evt = false := by
  obtain ⟨type, buf⟩ := evt
  obtain rfl : type = .imageChunk := htype
  cases buf with
  | none => exact iff_of_true (fun hfail => by cases hfail) rfl
  | some buf =>
    by_cases hprocessed :
        payloadLength env.beyond buf.bytes ≤ bmDfuMaxChunkSize ∧ env.timerStop w.log.length = .ok
    · obtain ⟨hlen, hstop⟩ := hprocessed
      obtain ⟨call, hcall, hdone⟩ := payloadCall_done env
        (w := w.withEvent { type := .imageChunk, buf := some buf }) rfl hlen hstop hc
      have hfailed := hdone.failed
      have hforgets : forgetsFailure env w { type := .imageChunk, buf := some buf } =
          (call.1 && !(payloadLength env.beyond buf.bytes == 0 && !moreChunks w &&
            w.client.imgPageByteCounter != 0 && env.flashAreaWrite (w.log.length + 2) != .ok)) := by
        rw [hfailed]
        simp only [forgetsFailure, hlen, decide_true, hstop, beq_self_eq_true, Bool.true_and]
        rfl
      rw [hforgets]
      cases hmore : moreChunks w with
      | true =>
        rw [failureAborts_more hw hs hcall hdone hmore]
        simp
      | false =>
        rw [failureAborts_last hw hs hcall hdone hmore, endCall_failed hcall, hdone.more]
        have hlast : moreChunks (w.withEvent { type := .imageChunk, buf := some buf }) = false :=
          hmore
        rw [hlast]
        by_cases hzero : payloadLength env.beyond buf.bytes = 0
        · obtain ⟨hcounter, hlog⟩ := hdone.empty hzero
          have hcount :
              (w.withEvent { type := .imageChunk, buf := some buf }).client.imgPageByteCounter =
                w.client.imgPageByteCounter := rfl
          have hlength : (w.withEvent { type := .imageChunk, buf := some buf }).log.length =
              w.log.length := rfl
          rw [hcounter, hlog, hzero, hcount, hlength]
          cases call.1 <;> simp
        · cases hfail : call.1 with
          | false => simp
          | true =>
            rw [hdone.unwritten hzero hfail]
            simp [hzero]
    · have hnone := payloadCall_none env (w :=
        w.withEvent { type := .imageChunk, buf := some buf }) rfl
        hprocessed
      refine iff_of_true (fun hfail => ?_) ?_
      · rw [writeFailed, endCall, hnone] at hfail
        cases hfail
      · simp only [forgetsFailure]
        rcases not_and_or.mp hprocessed with hlen | hstop
        · simp [hlen]
        · simp [hstop]

end Turn

/-- In every run, a turn of the event thread on a chunk in Receiving ends in the error state when a
write has failed, and requests no further chunk, exactly when it does not forget the failure. -/
theorem write_failures_abort_iff (env : Env) (self : UInt64) (info : RebootClientUpdateInfo)
    (flash : Nat → UInt8)
    (as : List Action) (evt : BmDfuEvent) (rest : List BmDfuEvent) :
    let w := as.foldl (act env) (bmDfuInit self info flash)
    w.core.currentState = .clientReceiving → w.queue = evt :: rest → evt.type = .imageChunk →
      (FailureAborts env evt (w.withQueue rest) (act env w .turn) ↔
      forgetsFailure env w evt = false) := by
  intro w hs hq htype
  have hinv : PageInv w := pageInv_run env self info flash as
  have hturn := failureAborts_iff env (w := w.withQueue rest) hinv.settled hs (hinv.page hs) htype
  rw [act_turn_cons env hq, FailureAborts, released_core, released_seen evt _ fun _ => rfl]
  exact hturn

/-- Node 9 sends `payload` as the only chunk of an image to node 7. -/
def onlyChunk (payload : List UInt8) : List Action :=
  [.turn, .turn, .frame (startFrame 9 7 ⟨1, 1, 0, 0, 0, 0, 2⟩), .turn, .turn,
    .frame (payloadFrame 9 7 payload.length payload)]

theorem write_failures_abort_onlyChunk :
    let env := Env.steady 1 4096 []
    let w := (onlyChunk [0xAB]).foldl (act env) (bmDfuInit 7 .zero fun _ => 0xFF)
    let evt : BmDfuEvent :=
      { type := .imageChunk, buf := some ⟨8, payloadFrame 9 7 1 [0xAB], none, 0⟩ }
    FailureAborts env evt (w.withQueue []) (act env w .turn) :=
  (write_failures_abort_iff (Env.steady 1 4096 []) 7 .zero (fun _ => 0xFF) (onlyChunk [0xAB])
    { type := .imageChunk, buf := some ⟨8, payloadFrame 9 7 1 [0xAB], none, 0⟩ } []
    (by decide +kernel) (by decide +kernel) rfl).mpr (by decide +kernel)

/-- The only chunk is empty: it cannot be processed, and the client goes on to validate the
image. -/
theorem emptyChunk_validated :
    let env := Env.steady 1 4096 []
    let w := (onlyChunk []).foldl (act env) (bmDfuInit 7 .zero fun _ => 0xFF)
    let evt : BmDfuEvent := { type := .imageChunk, buf := some ⟨8, payloadFrame 9 7 0 [], none, 0⟩ }
    w.core.currentState = .clientReceiving ∧ w.queue = [evt] ∧
      ¬ FailureAborts env evt (w.withQueue []) (act env w .turn) :=
  ⟨by decide +kernel, by decide +kernel, fun h =>
  absurd (h (by decide +kernel)).1 (by decide +kernel)⟩

end BmCore.Dfu
