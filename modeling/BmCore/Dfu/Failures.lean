import BmCore.Dfu.Node
import Mathlib.Data.List.Induction

/-!
# Steps of the client that fail

From the state and the event alone: when a step of the Receiving state gives the update up. The
answers of timers and flash are those of the calls the step is about to make, counted from the
calls made so far.
-/
namespace BmCore.Dfu
open Library

/-- A payload of `len` bytes completes the page. -/
def pageFull (w : World) (len : Nat) : Bool := bmImgPageLength ≤ len + w.client.imgPageByteCounter

/-- The chunk after the current one is still part of the image. -/
def moreChunks (w : World) : Bool := (w.client.currentChunk + 1) % 2 ^ 16 < w.client.numChunks

/-- A payload of `len` bytes, in front of the end of the image, ends the update: the chunk timer
does not stop, the payload is empty, the completed page is not written, or the chunk timer does
not start again. The last payload only needs the timer to stop. -/
def chunkFails (env : Env) (w : World) (len : Nat) : Bool :=
  let call := w.log.length
  env.timerStop call != .ok ||
    (moreChunks w && (len == 0 || (pageFull w len && env.flashAreaWrite (call + 1) != .ok) ||
      env.timerStart (if pageFull w len then call + 3 else call + 2) != .ok))

/-- The event ends the update in Receiving before the image is complete. -/
def receivingFails (env : Env) (w : World) (evt : BmDfuEvent) : Bool :=
  let call := w.log.length
  match evt.type, evt.buf with
  | .imageChunk, some buf =>
    payloadLength env.beyond buf.bytes ≤ bmDfuMaxChunkSize &&
      chunkFails env w (payloadLength env.beyond buf.bytes)
  | .chunkTimeout, _ =>
    (w.client.chunkRetryNum + 1) % 2 ^ 8 ≥ bmDfuMaxChunkRetries ||
      env.timerStart (call + 1) != .ok
  | .receivedUpdateRequest, _ => env.timerStop call != .ok || env.timerStart (call + 3) != .ok
  | .heartbeat, _ => env.timerStart call != .ok
  | _, _ => false

/-- The last payload, of `len` bytes, leaves bytes in the page buffer that are then not written.
The calls are counted from `call`, behind the stop of the chunk timer. -/
def lastChunkFails (env : Env) (w : World) (call len : Nat) : Bool :=
  let count := w.client.imgPageByteCounter + len
  if pageFull w len then
    env.flashAreaWrite call == .ok && count != bmImgPageLength &&
      env.flashAreaWrite (call + 1) != .ok
  else count != 0 && env.flashAreaWrite (if len = 0 then call + 1 else call) != .ok

/-- The event completes the image in Receiving, and the end of the image is not written. -/
def imageEndFails (env : Env) (w : World) (evt : BmDfuEvent) : Bool :=
  match evt.type, evt.buf with
  | .imageChunk, some buf =>
    payloadLength env.beyond buf.bytes ≤ bmDfuMaxChunkSize && !moreChunks w &&
      env.timerStop w.log.length == .ok &&
      lastChunkFails env w (w.log.length + 1) (payloadLength env.beyond buf.bytes)
  | _, _ => false

/-! ## Errors that are not left -/

/-- The error state that is never left. -/
def World.fatal (w : World) : Prop :=
  w.core.currentState = .error ∧ w.core.pendingStateChange = false

instance (w : World) : Decidable w.fatal := inferInstanceAs (Decidable (_ ∧ _))

/-- A fatal error is not left. -/
theorem moved_fatal (env : Env) {u : World} (hn : u.core.newState = .error)
    (he : ¬ u.core.error.code < BmDfuErr.flashAccess.code) : (u.moved env).fatal := by
  refine ⟨(moved_currentState env u).trans hn, ?_⟩
  have hentry : ∀ v : World, v.core.pendingStateChange = false → v.core.error = u.core.error →
      (sErrorEntry v).2.core.pendingStateChange = false := by
    intro v hp herr
    unfold sErrorEntry
    dsimp only
    rw [coreUpdateFinish_core, herr, if_neg he]
    rw [coreUpdateFinish_core]
    exact hp
  by_cases h : u.core.currentState = .hostUpdate
  · rw [moved_eq_of_hostUpdate env h, hn]
    refine hentry _ rfl ?_
    show (sHostUpdateExit u).2.core.error = u.core.error
    rw [hostUpdateExit_core]
  · rw [moved_eq env h, hn]
    exact hentry _ rfl rfl

/-! ## Open and close -/

def Effect.isOpened : Effect → Bool
  | .flashAreaOpen r => r == .ok
  | _ => false

def Effect.isClosed : Effect → Bool
  | .flashAreaClose => true
  | _ => false

/-- Successful opens of the flash area so far. -/
def World.opens (w : World) : Nat := (w.seen Effect.isOpened).length
/-- Closes of the flash area so far. -/
def World.closes (w : World) : Nat := (w.seen Effect.isClosed).length

section Hold
variable (w : World) (e : Effect)

@[simp] theorem opens_emit : (w.emit e).opens = w.opens + if e.isOpened then 1 else 0 := by
  unfold World.opens World.seen
  rw [emit_log, List.filter_cons]
  split <;> rfl

@[simp] theorem closes_emit : (w.emit e).closes = w.closes + if e.isClosed then 1 else 0 := by
  unfold World.closes World.seen
  rw [emit_log, List.filter_cons]
  split <;> rfl

@[simp] theorem opens_withClient (c : DfuClientCtx) : (w.withClient c).opens = w.opens := rfl
@[simp] theorem closes_withClient (c : DfuClientCtx) : (w.withClient c).closes = w.closes := rfl
@[simp] theorem opens_withFlash (f : Nat → UInt8) : (w.withFlash f).opens = w.opens := rfl
@[simp] theorem closes_withFlash (f : Nat → UInt8) : (w.withFlash f).closes = w.closes := rfl
@[simp] theorem opens_withRebootInfo (i : RebootClientUpdateInfo) :
    (w.withRebootInfo i).opens = w.opens := rfl
@[simp] theorem closes_withRebootInfo (i : RebootClientUpdateInfo) :
    (w.withRebootInfo i).closes = w.closes := rfl

end Hold

/-- The flash area is neither opened nor closed. -/
structure SameHold (w u : World) : Prop where
  opens : u.opens = w.opens
  closes : u.closes = w.closes

/-- The flash area is closed once. -/
structure Closed (w u : World) : Prop where
  opens : u.opens = w.opens
  closes : u.closes = w.closes + 1

namespace SameHold
variable {w u v : World}

theorem refl (w : World) : SameHold w w := ⟨rfl, rfl⟩

theorem trans (h : SameHold w u) (g : SameHold u v) : SameHold w v :=
  ⟨g.opens.trans h.opens, g.closes.trans h.closes⟩

theorem of_seen {p : Effect → Bool} (ho : ∀ e, e.isOpened = true → p e = true)
    (hc : ∀ e, e.isClosed = true → p e = true) (h : u.seen p = w.seen p) : SameHold w u :=
  ⟨congrArg List.length (seen_eq_of_sub ho h), congrArg List.length (seen_eq_of_sub hc h)⟩

theorem of_ofFlash (h : u.seen Effect.ofFlash = w.seen Effect.ofFlash) : SameHold w u := by
  refine .of_seen (fun e he => ?_) (fun e he => ?_) h <;>
    cases e <;> simp_all [Effect.isOpened, Effect.isClosed, Effect.ofFlash]

end SameHold

theorem sameHold_emit {e : Effect} (he : e.ofFlash = false) (w : World) : SameHold w (w.emit e) :=
  .of_ofFlash (by simp [World.seen, he])

theorem sameHold_clientError (env : Env) (err : BmDfuErr) (w : World) :
    SameHold w (bmDfuClientTransitionToError env err w) :=
  .of_ofFlash (by simp [World.seen, Effect.ofFlash])

theorem sameHold_setPending (s : BmDfuState) (w : World) :
    SameHold w (bmDfuSetPendingStateChange s w) :=
  .of_ofFlash (by simp [World.seen])

theorem sameHold_processPayload (env : Env) (buf : List UInt8) (w : World) :
    SameHold w (bmDfuProcessPayload env buf w).2 :=
  ⟨congrArg List.length (bmDfuProcessPayload_seen (fun _ _ _ => rfl) env w buf),
    congrArg List.length (bmDfuProcessPayload_seen (fun _ _ _ => rfl) env w buf)⟩

theorem closed_processEnd (env : Env) (w : World) : Closed w (bmDfuProcessEnd env w).2 := by
  have ho := bmDfuWriteDirty_seen (p := Effect.isOpened) (fun _ _ _ => rfl) env w
  have hc := bmDfuWriteDirty_seen (p := Effect.isClosed) (fun _ _ _ => rfl) env w
  refine ⟨?_, ?_⟩
  · rw [World.opens, World.opens, ← ho]
    simp [bmDfuProcessEnd, bmDfuClientFlashAreaClose, World.seen, Effect.isOpened]
  · rw [World.closes, World.closes, ← hc]
    simp [bmDfuProcessEnd, bmDfuClientFlashAreaClose, World.seen, Effect.isClosed,
      List.filter_cons]

/-! ## A payload -/

/-- A full page is written, once, and the page buffer is empty then. -/
theorem bmDfuWritePage_calls (env : Env) (w : World) :
    (bmDfuWritePage env w).1 = env.flashAreaWrite w.log.length ∧
      (bmDfuWritePage env w).2.client.imgPageByteCounter = 0 ∧
      (bmDfuWritePage env w).2.log.length = w.log.length + 1 := by
  unfold bmDfuWritePage
  dsimp only
  split <;> exact ⟨rfl, rfl, by simp⟩

/-- What `bmDfuProcessPayload` answers and calls, and how full the page buffer is then. -/
structure PayloadCalls (env : Env) (w : World) (len : Nat) (r : Bool × World) : Prop where
  empty : len = 0 → r = (true, w)
  fits : len ≠ 0 → pageFull w len = false → r.1 = false ∧ r.2.log = w.log ∧
    r.2.client.imgPageByteCounter = w.client.imgPageByteCounter + len
  full : pageFull w len = true → r.1 = (env.flashAreaWrite w.log.length != .ok) ∧
    r.2.log.length = w.log.length + 1 ∧ r.2.client.imgPageByteCounter =
      if env.flashAreaWrite w.log.length = .ok then
        w.client.imgPageByteCounter + len - bmImgPageLength else 0

theorem PayloadCalls.counter_lt {env : Env} {w : World} {len : Nat} {r : Bool × World}
    (h : PayloadCalls env w len r) (hc : w.client.imgPageByteCounter < bmImgPageLength)
    (hlen : len ≤ bmDfuMaxChunkSize) : r.2.client.imgPageByteCounter < bmImgPageLength := by
  have hmax : bmDfuMaxChunkSize < bmImgPageLength := by decide
  cases hf : pageFull w len with
  | true =>
    rw [(h.full hf).2.2]
    split
    · omega
    · omega
  | false =>
    by_cases h0 : len = 0
    · rw [h.empty h0]
      exact hc
    · have hlt : bmImgPageLength > len + w.client.imgPageByteCounter := by
        simpa [pageFull] using hf
      rw [(h.fits h0 hf).2.2]
      omega

/-- A payload that is taken leaves room in the page, and the timer behind it is started. -/
theorem PayloadCalls.taken {env : Env} {w : World} {len : Nat} {r : Bool × World}
    (h : PayloadCalls env w len r) (hne : len ≠ 0)
    (hwrite : pageFull w len = true → env.flashAreaWrite w.log.length = .ok)
    (hstart : env.timerStart (if pageFull w len then w.log.length + 2
      else w.log.length + 1) = .ok) :
    r.1 = false ∧ env.timerStart (r.2.log.length + 1) = .ok := by
  cases hf : pageFull w len with
  | false =>
    obtain ⟨hfst, hlog, -⟩ := h.fits hne hf
    rw [hf] at hstart
    exact ⟨hfst, by rw [hlog]; exact hstart⟩
  | true =>
    obtain ⟨hfst, hlog, -⟩ := h.full hf
    rw [hf] at hstart
    exact ⟨by rw [hfst, hwrite hf]; rfl, by rw [hlog]; exact hstart⟩

theorem bmDfuProcessPayload_calls (env : Env) {buf : List UInt8} {w : World}
    (hc : w.client.imgPageByteCounter < bmImgPageLength)
    (hlen : buf.length ≤ bmDfuMaxChunkSize) :
    PayloadCalls env w buf.length (bmDfuProcessPayload env buf w) := by
  simp only [bmImgPageLength, bmDfuMaxChunkSize] at hc hlen
  refine ⟨fun h0 => ?_, fun h0 hfull => ?_, fun hfull => ?_⟩
  · unfold bmDfuProcessPayload
    rw [if_pos h0]
  · have hgt : bmImgPageLength > buf.length + w.client.imgPageByteCounter := by
      simpa [pageFull] using hfull
    have hcount : (w.client.fillPage buf).imgPageByteCounter =
        w.client.imgPageByteCounter + buf.length := by
      simp only [bmImgPageLength] at hgt
      exact Nat.mod_eq_of_lt (by omega)
    have hne : ¬ (w.client.fillPage buf).imgPageByteCounter = bmImgPageLength := by omega
    unfold bmDfuProcessPayload
    simp only [h0, if_false, hgt, if_true, withClient_client, hne]
    exact ⟨trivial, rfl, hcount⟩
  · have hge : ¬ bmImgPageLength > buf.length + w.client.imgPageByteCounter := by
      simpa [pageFull] using hfull
    have h0 : ¬ buf.length = 0 := by
      simp only [bmImgPageLength] at hge
      omega
    generalize hk : bmImgPageLength - w.client.imgPageByteCounter = k
    have hk' : w.client.imgPageByteCounter + k = 2048 := by
      simp only [bmImgPageLength] at hk
      omega
    have hpage : (w.client.fillPage (buf.take k)).imgPageByteCounter = bmImgPageLength := by
      simp only [bmImgPageLength] at hge
      simp only [DfuClientCtx.fillPage, List.length_take, bmImgPageLength]
      omega
    unfold bmDfuProcessPayload
    simp only [h0, if_false, hge, hk, withClient_client, hpage, if_true]
    have hcalls := bmDfuWritePage_calls env (w.withClient (w.client.fillPage (buf.take k)))
    generalize bmDfuWritePage env (w.withClient (w.client.fillPage (buf.take k))) = r at hcalls ⊢
    obtain ⟨hret, hzero, hlog⟩ := hcalls
    have hret' : r.1 = env.flashAreaWrite w.log.length := hret
    by_cases hok : env.flashAreaWrite w.log.length = .ok
    · rw [if_neg (by rw [hret', hok]; simp), if_pos hok, hok]
      refine ⟨by simp, hlog, ?_⟩
      show (r.2.client.imgPageByteCounter + (buf.drop k).length) % 2 ^ 16 = _
      rw [hzero, List.length_drop]
      simp only [bmImgPageLength]
      omega
    · rw [if_pos (by rw [hret']; exact hok), if_neg hok]
      refine ⟨?_, hlog, hzero⟩
      simpa using hok

/-- Whether the bytes the last payload leaves in the page buffer are written; a payload that could
not be processed is followed by one more timer call. -/
theorem PayloadCalls.lastFails {env : Env} {w : World} {len : Nat} {r : Bool × World}
    (h : PayloadCalls env w len r) :
    (r.2.client.imgPageByteCounter != 0 && env.flashAreaWrite
      (if r.1 then r.2.log.length + 1 else r.2.log.length) != .ok) =
        lastChunkFails env w w.log.length len := by
  unfold lastChunkFails
  dsimp only
  cases hf : pageFull w len with
  | true =>
    obtain ⟨h₁, h₂, h₃⟩ := h.full hf
    rw [if_pos rfl, h₁, h₂, h₃]
    have hle : bmImgPageLength ≤ len + w.client.imgPageByteCounter := by
      simpa [pageFull] using hf
    by_cases hok : env.flashAreaWrite w.log.length = .ok
    · have hne : (w.client.imgPageByteCounter + len - bmImgPageLength != 0) =
          (w.client.imgPageByteCounter + len != bmImgPageLength) := by
        rw [Bool.eq_iff_iff, bne_iff_ne, bne_iff_ne]
        omega
      simp [hok, hne]
    · simp [hok]
  | false =>
    by_cases h0 : len = 0
    · rw [h.empty h0, h0]
      simp
    · obtain ⟨h₁, h₂, h₃⟩ := h.fits h0 hf
      rw [h₁, h₂, h₃, if_neg h0]
      simp

/-! ## A step in Receiving -/

/-- The client is still receiving. -/
structure StillReceiving (w u : World) : Prop where
  pending : u.core.pendingStateChange = false
  hold : SameHold w u
  counter : u.client.imgPageByteCounter < bmImgPageLength

/-- The image is complete: the flash area is closed and the client leaves Receiving, for the error
state if the last write `fails`. -/
structure ImageComplete (fails : Bool) (w u : World) : Prop where
  pending : u.core.pendingStateChange = true
  newState : u.core.newState = if fails then .error else .clientValidating
  closed : Closed w u

theorem clientTimerErrCheck_ok {env : Env} {call : BmErr × World} (h : call.1 = .ok) :
    clientTimerErrCheck env call = call := by
  simp [clientTimerErrCheck, h]

theorem clientNextChunk_more {env : Env} {w : World} (hmore : moreChunks w = true)
    (hpend : w.core.pendingStateChange = false)
    (hc : w.client.imgPageByteCounter < bmImgPageLength)
    (hstart : env.timerStart (w.log.length + 1) = .ok) :
    StillReceiving w (clientNextChunk env w).2 := by
  have hlt : (w.client.currentChunk + 1) % 2 ^ 16 < w.client.numChunks := by
    simpa [moreChunks] using hmore
  unfold clientNextChunk
  dsimp only
  split
  · rw [clientTimerErrCheck_ok (by simpa using hstart)]
    refine ⟨hpend, ?_, hc⟩
    exact .of_ofFlash (by simp [World.seen, Effect.ofFlash])
  next hge => exact absurd hlt hge

theorem bmDfuProcessEnd_fst (env : Env) (w : World) : (bmDfuProcessEnd env w).1 =
    (w.client.imgPageByteCounter != 0 && env.flashAreaWrite w.log.length != .ok) := by
  unfold bmDfuProcessEnd bmDfuWriteDirty
  dsimp only
  split
  next hc =>
    rw [flashAreaWrite_fst, bne_iff_ne.mpr hc, Bool.true_and]
    split
    · rfl
    · rfl
  next hc =>
    rw [not_not.mp hc]
    rfl

theorem clientNextChunk_last (env : Env) {w : World} (hlast : moreChunks w = false) :
    ImageComplete (w.client.imgPageByteCounter != 0 && env.flashAreaWrite w.log.length != .ok) w
      (clientNextChunk env w).2 := by
  have hge : ¬ (w.client.currentChunk + 1) % 2 ^ 16 < w.client.numChunks := by
    simpa [moreChunks] using hlast
  unfold clientNextChunk
  dsimp only
  split
  next hlt => exact absurd hlt hge
  · generalize hv : w.withClient { w.client with
      currentChunk := (w.client.currentChunk + 1) % 2 ^ 16, chunkRetryNum := 0 } = v
    have hclosed : Closed w (bmDfuProcessEnd env v).2 := by
      subst hv
      exact ⟨(closed_processEnd env _).opens, (closed_processEnd env _).closes⟩
    have hfst : (bmDfuProcessEnd env v).1 =
        (w.client.imgPageByteCounter != 0 && env.flashAreaWrite w.log.length != .ok) := by
      subst hv
      exact bmDfuProcessEnd_fst env _
    split
    next hfail =>
      rw [hfst] at hfail
      have h := sameHold_clientError env .bmFrame (bmDfuProcessEnd env v).2
      exact ⟨by simp, by rw [hfail]; simp, h.opens.trans hclosed.opens,
        h.closes.trans hclosed.closes⟩
    next hfail =>
      rw [hfst, Bool.not_eq_true] at hfail
      have h := sameHold_setPending .clientValidating (bmDfuProcessEnd env v).2
      exact ⟨by simp, by rw [hfail]; simp, h.opens.trans hclosed.opens,
        h.closes.trans hclosed.closes⟩

/-- The chunk branch behind the timer, in a world whose log is one call longer. -/
theorem clientAcceptChunk_notFailed {env : Env} {w : World} {payload : List UInt8}
    (hpend : w.core.pendingStateChange = false)
    (hc : w.client.imgPageByteCounter < bmImgPageLength)
    (hlen : payload.length ≤ bmDfuMaxChunkSize)
    (hok : moreChunks w = true → payload.length ≠ 0 ∧
      (pageFull w payload.length = true → env.flashAreaWrite w.log.length = .ok) ∧
      env.timerStart (if pageFull w payload.length then w.log.length + 2
        else w.log.length + 1) = .ok) :
    StillReceiving w (clientAcceptChunk env payload w).2 ∨
      (moreChunks w = false ∧ ImageComplete (lastChunkFails env w w.log.length payload.length) w
        (clientAcceptChunk env payload w).2) := by
  unfold clientAcceptChunk
  dsimp only
  generalize hv : w.withClient { w.client with
    chunkLength := payload.length
    runningCrc16 := crc16Ccitt w.client.runningCrc16 payload } = v
  have hhold : SameHold w v := by
    subst hv
    exact ⟨rfl, rfl⟩
  have hcalls : PayloadCalls env v payload.length (bmDfuProcessPayload env payload v) := by
    subst hv
    exact bmDfuProcessPayload_calls env hc hlen
  have hwc : lastChunkFails env v v.log.length payload.length =
      lastChunkFails env w w.log.length payload.length := by
    subst hv
    rfl
  have hframe := bmDfuProcessPayload_frame env payload v
  have hpay := hhold.trans (sameHold_processPayload env payload v)
  have hmore : moreChunks (bmDfuProcessPayload env payload v).2 = moreChunks w := by
    unfold moreChunks
    rw [hframe.currentChunk, hframe.numChunks]
    subst hv
    rfl
  cases hm : moreChunks w with
  | false =>
    refine .inr ⟨rfl, ?_⟩
    have hfails := hcalls.lastFails
    rw [hwc] at hfails
    split
    next hfail =>
      rw [if_pos hfail] at hfails
      have herr := sameHold_clientError env .bmFrame (bmDfuProcessPayload env payload v).2
      have hlast := clientNextChunk_last env
        (w := bmDfuClientTransitionToError env .bmFrame (bmDfuProcessPayload env payload v).2)
        (by rw [← hm, ← hmore]; simp [moreChunks])
      rw [clientError_client, clientError_log, List.length_cons, hfails] at hlast
      have h := hpay.trans herr
      exact ⟨hlast.pending, hlast.newState, hlast.closed.opens.trans h.opens, by
        rw [hlast.closed.closes, h.closes]⟩
    next hfail =>
      rw [if_neg hfail] at hfails
      have hlast := clientNextChunk_last env (w := (bmDfuProcessPayload env payload v).2)
        (hmore.trans hm)
      rw [hfails] at hlast
      exact ⟨hlast.pending, hlast.newState, hlast.closed.opens.trans hpay.opens, by
        rw [hlast.closed.closes, hpay.closes]⟩
  | true =>
    left
    obtain ⟨hne, hwrite, hstart⟩ := hok hm
    have hcounter : (bmDfuProcessPayload env payload v).2.client.imgPageByteCounter <
        bmImgPageLength := hcalls.counter_lt (by subst hv; exact hc) hlen
    obtain ⟨hok, hstarted⟩ : (bmDfuProcessPayload env payload v).1 = false ∧
        env.timerStart ((bmDfuProcessPayload env payload v).2.log.length + 1) = .ok := by
      subst hv
      exact hcalls.taken hne hwrite hstart
    rw [if_neg (by simp [hok])]
    have hnext := clientNextChunk_more (hmore.trans hm) (by
      rw [hframe.core]
      subst hv
      exact hpend) hcounter hstarted
    exact ⟨hnext.pending, hpay.trans hnext.hold, hnext.counter⟩

theorem imageChunk_notFailed {env : Env} {w : World} {buf : BmDfuBuf}
    (he : w.core.currentEvent = { type := .imageChunk, buf := some buf })
    (hpend : w.core.pendingStateChange = false)
    (hc : w.client.imgPageByteCounter < bmImgPageLength)
    (h : receivingFails env w { type := .imageChunk, buf := some buf } = false) :
    StillReceiving w (sClientReceivingRun env w).2 ∨
      ImageComplete (imageEndFails env w { type := .imageChunk, buf := some buf }) w
        (sClientReceivingRun env w).2 := by
  rw [receivingRun_imageChunk he]
  split
  · exact .inl ⟨hpend, .refl w, hc⟩
  next hlen =>
    have hlen' : payloadLength env.beyond buf.bytes ≤ bmDfuMaxChunkSize := by omega
    simp only [receivingFails, chunkFails, hlen', decide_true, Bool.true_and,
      Bool.or_eq_false_iff, bne_eq_false_iff_eq] at h
    rw [if_neg (not_not.mpr h.1)]
    have hstop := sameHold_emit (e := .timerStop .chunk (env.timerStop w.log.length)) rfl w
    have hlength : (payloadBuf env.beyond buf.bytes
        (payloadLength env.beyond buf.bytes)).length =
        payloadLength env.beyond buf.bytes := window_length ..
    have hok : moreChunks w = true → payloadLength env.beyond buf.bytes ≠ 0 ∧
        (pageFull w (payloadLength env.beyond buf.bytes) = true →
          env.flashAreaWrite (w.log.length + 1) = .ok) ∧
        env.timerStart (if pageFull w (payloadLength env.beyond buf.bytes)
          then w.log.length + 3 else w.log.length + 2) = .ok := by
      intro hm
      simp only [hm, Bool.true_and, Bool.or_eq_false_iff, bne_eq_false_iff_eq,
        beq_eq_false_iff_ne, Bool.and_eq_false_iff] at h
      obtain ⟨-, ⟨hne, hwrite⟩, hstart⟩ := h
      refine ⟨hne, fun hf => ?_, hstart⟩
      rcases hwrite with hw | hw
      · rw [hf] at hw
        cases hw
      · exact hw
    rw [← hlength] at hok hlen'
    have hchunk := clientAcceptChunk_notFailed (w := (bmTimerStop env .chunk w).2)
      hpend hc hlen' hok
    rcases hchunk with hs | ⟨hm, hs⟩
    · exact .inl ⟨hs.pending, hstop.trans hs.hold, hs.counter⟩
    · have hend : imageEndFails env w { type := .imageChunk, buf := some buf } =
          lastChunkFails env w (w.log.length + 1) (payloadLength env.beyond buf.bytes) := by
        have hm' : moreChunks w = false := hm
        rw [hlength] at hlen'
        simp only [imageEndFails, hm', h.1, hlen', decide_true, Bool.not_false, Bool.true_and,
          beq_self_eq_true]
      rw [hlength] at hs
      refine .inr ⟨hs.pending, ?_, hs.closed.opens.trans hstop.opens, ?_⟩
      · rw [hend]
        exact hs.newState
      · rw [hs.closed.closes]
        exact congrArg (· + 1) hstop.closes

/-- A step of Receiving that does not fail stays or completes the image. -/
theorem receivingRun_notFailed {env : Env} {w : World}
    (hpend : w.core.pendingStateChange = false)
    (hc : w.client.imgPageByteCounter < bmImgPageLength)
    (h : receivingFails env w w.core.currentEvent = false) :
    StillReceiving w (sClientReceivingRun env w).2 ∨
      ImageComplete (imageEndFails env w w.core.currentEvent) w
        (sClientReceivingRun env w).2 := by
  rcases he : w.core.currentEvent with ⟨type, buf⟩
  by_cases hacts : actsInReceiving w.core.currentEvent = false
  · rw [receivingRun_ignored hacts]
    exact .inl ⟨hpend, .refl w, hc⟩
  rw [he] at hacts h
  cases type with
  | imageChunk =>
    cases buf with
    | none => simp [actsInReceiving] at hacts
    | some buf =>
      exact imageChunk_notFailed he hpend hc h
  | chunkTimeout =>
    rw [receivingRun_chunkTimeout he]
    simp only [receivingFails, Bool.or_eq_false_iff, bne_eq_false_iff_eq, decide_eq_false_iff_not]
      at h
    unfold clientChunkTimeout
    dsimp only
    left
    split
    next hretry => exact absurd hretry h.1
    · rw [clientTimerErrCheck_ok (by simpa using h.2)]
      exact ⟨hpend, .of_ofFlash (by simp [World.seen, Effect.ofFlash]), hc⟩
  | receivedUpdateRequest =>
    rw [receivingRun_updateRequest he]
    simp only [receivingFails, Bool.or_eq_false_iff, bne_eq_false_iff_eq] at h
    left
    rw [if_neg (not_not.mpr h.1)]
    unfold clientResync
    rw [clientTimerErrCheck_ok (by simpa using h.2)]
    exact ⟨hpend, .of_ofFlash (by simp [World.seen, Effect.ofFlash]), by
      simp [DfuClientCtx.restart, bmImgPageLength]⟩
  | heartbeat =>
    rw [receivingRun_heartbeat he]
    simp only [receivingFails, bne_eq_false_iff_eq] at h
    left
    rw [clientTimerErrCheck_ok h]
    exact ⟨hpend, .of_ofFlash (by simp [World.seen, Effect.ofFlash]), hc⟩
  | _ => simp [actsInReceiving] at hacts

/-! ## The page buffer never overflows -/

theorem clientNextChunk_counter (env : Env) (w : World) :
    (clientNextChunk env w).2.client.imgPageByteCounter = w.client.imgPageByteCounter := by
  have hend : ∀ v : World, (bmDfuProcessEnd env v).2.client.imgPageByteCounter =
      v.client.imgPageByteCounter := by
    intro v
    unfold bmDfuProcessEnd bmDfuWriteDirty bmDfuClientFlashAreaClose
    dsimp only
    split
    · split <;> rfl
    · rfl
  unfold clientNextChunk
  dsimp only
  split
  · rw [clientTimerErrCheck_client]
    rfl
  · split
    · rw [clientError_client, hend]
      rfl
    · rw [setPending_client, hend]
      rfl

theorem receivingRun_counter (env : Env) {w : World}
    (hc : w.client.imgPageByteCounter < bmImgPageLength) :
    (sClientReceivingRun env w).2.client.imgPageByteCounter < bmImgPageLength := by
  have hzero : 0 < bmImgPageLength := by decide
  unfold sClientReceivingRun clientChunkTimeout clientResync clientAcceptChunk
  dsimp only
  split
  next buf _ _ =>
    split
    · exact hc
    next hlen =>
      have hlength : (payloadBuf env.beyond buf.bytes (payloadLength env.beyond buf.bytes)).length ≤
          bmDfuMaxChunkSize := by
        rw [payloadBuf, window_length]
        omega
      split
      · simpa using hc
      · rw [clientNextChunk_counter]
        have hcalls := bmDfuProcessPayload_calls env (w := (bmTimerStop env .chunk w).2.withClient
          { (bmTimerStop env .chunk w).2.client with
            chunkLength := (payloadBuf env.beyond buf.bytes
              (payloadLength env.beyond buf.bytes)).length
            runningCrc16 := crc16Ccitt w.client.runningCrc16
              (payloadBuf env.beyond buf.bytes (payloadLength env.beyond buf.bytes)) }) hc hlength
        have hlt := hcalls.counter_lt hc hlength
        split
        · rw [clientError_client]
          exact hlt
        · exact hlt
  · split
    · simpa using hc
    · rw [clientTimerErrCheck_client]
      exact hc
  · split
    · simpa using hc
    · rw [clientTimerErrCheck_client]
      exact hzero
  · rw [clientTimerErrCheck_client]
    exact hc
  · exact hc

theorem consume_page {env : Env} {evt : BmDfuEvent} {w : World} (hw : Settled w)
    (hpage : w.core.currentState = .clientReceiving →
      w.client.imgPageByteCounter < bmImgPageLength)
    (hs : (consume env evt w).core.currentState = .clientReceiving) :
    (consume env evt w).client.imgPageByteCounter < bmImgPageLength := by
  obtain ⟨hst, ⟨-, hu⟩ | ⟨-, hn, hu⟩⟩ := consume_cases env evt hw
  · rw [hu] at hs ⊢
    rw [hst] at hs
    have hafter : w.afterRun env evt = (sClientReceivingRun env (w.withEvent evt)).2 := by
      simp [World.afterRun, hs, dfuStates]
    rw [hafter]
    exact receivingRun_counter env (hpage hs)
  · rw [hu] at hs ⊢
    rw [moved_currentState] at hs
    have hidle : w.core.currentState = .idle := by
      rw [hs] at hn
      exact eq_idle_of_receiving hn
    rw [moved_eq_entry env (hst.trans hidle) (by decide) hs]
    show 0 < bmImgPageLength
    decide

/-- What every run keeps of the page buffer. -/
structure PageInv (w : World) : Prop where
  settled : Settled w
  page : w.core.currentState = .clientReceiving → w.client.imgPageByteCounter < bmImgPageLength

theorem PageInv.act {env : Env} {w : World} (h : PageInv w) (a : Action) :
    PageInv (act env w a) := by
  refine ⟨act_settled env h.settled a, ?_⟩
  by_cases ha : a = .turn
  · subst ha
    cases hq : w.queue with
    | nil =>
      rw [act_turn_nil env hq]
      exact h.page
    | cons evt rest =>
      rw [act_turn_cons env hq, released_core, released_client]
      exact consume_page (w := w.withQueue rest) h.settled h.page
  · have houtside := act_outside env w ha
    rw [houtside.currentState, houtside.client]
    exact h.page

theorem pageInv_run (env : Env) (self : UInt64) (info : RebootClientUpdateInfo)
    (flash : Nat → UInt8)
    (as : List Action) : PageInv (as.foldl (Dfu.act env) (bmDfuInit self info flash)) := by
  induction as using List.reverseRecOn with
  | nil =>
    refine ⟨fun hpending => ?_, fun hstate => ?_⟩
    · cases hpending
    · cases hstate
  | append_singleton as a ih =>
    rw [List.foldl_append]
    exact ih.act a

end BmCore.Dfu
