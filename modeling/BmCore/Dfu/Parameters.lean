import BmCore.Dfu.Intake
import BmCore.Library.Runs

/-!
# The acknowledged parameters

The client acknowledges a Start frame in two places. In Idle it first takes over what the frame
says about the image; in Receiving it acknowledges without reading the frame. An observer
remembers the last Start frame that was acknowledged, to be compared with the parameters that
the chunk requests, the validation and the check after the reset use.
-/
namespace BmCore.Dfu
open Library

/-- What a running update uses of its Start frame. -/
structure UpdateParams where
  imageSize : Nat
  numChunks : Nat
  crc16 : UInt16
  gitSHA : UInt32
  major : UInt8
  minor : UInt8
  deriving DecidableEq

def UpdateParams.ofStart (info : BmDfuImgInfo) : UpdateParams where
  imageSize := info.imageSize.toNat
  numChunks := numChunksOf info
  crc16 := info.crc16
  gitSHA := info.gitSHA
  major := info.majorVer
  minor := info.minorVer

/-- The parameters in force. -/
def World.params (w : World) : UpdateParams where
  imageSize := w.client.imageSize
  numChunks := w.client.numChunks
  crc16 := w.client.crc16
  gitSHA := w.rebootInfo.gitSHA
  major := w.rebootInfo.major
  minor := w.rebootInfo.minor

/-- An Ack frame that reports success. -/
def Effect.isSuccessAck : Effect → Bool
  | .tx f _ => frameType (fun _ => 0) f == bcmpDFUAckMessage && resultSuccess (fun _ => 0) f != 0
  | _ => false

@[simp] theorem isSuccessAck_result (type : UInt8) (src dst : UInt64) (ok : UInt8)
    (err : BmDfuErr) (r : BmErr) : (Effect.tx (resultFrame type src dst ok err) r).isSuccessAck =
      (type == bcmpDFUAckMessage && ok != 0) := by
  have hok : resultSuccess (fun _ => 0) (resultFrame type src dst ok err) = ok := by
    simp [resultSuccess, byteAt, resultFrame, List.getD_eq_getElem?_getD]
  have htype : frameType (fun _ => 0) (resultFrame type src dst ok err) = type := rfl
  simp only [Effect.isSuccessAck, hok, htype]

@[simp] theorem isSuccessAck_payloadReq (src dst : UInt64) (n : Nat) (r : BmErr) :
    (Effect.tx (payloadReqFrame src dst n) r).isSuccessAck = false := rfl
@[simp] theorem isSuccessAck_rebootReq (src dst : UInt64) (r : BmErr) :
    (Effect.tx (frameHeader bcmpDFURebootReqMessage src dst) r).isSuccessAck = false := rfl
@[simp] theorem isSuccessAck_flashAreaOpen (r : BmErr) :
    (Effect.flashAreaOpen r).isSuccessAck = false := rfl
@[simp] theorem isSuccessAck_flashAreaErase (off len : Nat) (r : BmErr) :
    (Effect.flashAreaErase off len r).isSuccessAck = false := rfl
@[simp] theorem isSuccessAck_timerStart (t : Timer) (r : BmErr) :
    (Effect.timerStart t r).isSuccessAck = false := rfl
@[simp] theorem isSuccessAck_timerStop (t : Timer) (r : BmErr) :
    (Effect.timerStop t r).isSuccessAck = false := rfl

/-- Number of success Acks sent so far. -/
def World.acks (w : World) : Nat := (w.seen Effect.isSuccessAck).length

@[simp] theorem acks_emit (w : World) (e : Effect) :
    (w.emit e).acks = w.acks + if e.isSuccessAck then 1 else 0 := by
  unfold World.acks World.seen
  rw [emit_log, List.filter_cons]
  split <;> rfl

@[simp] theorem acks_withClient (w : World) (c : DfuClientCtx) :
    (w.withClient c).acks = w.acks := rfl

/-- A run with the last Start frame that was acknowledged. -/
structure Offer where
  world : World
  acked : Option BmDfuImgInfo

def Offer.step (env : Env) (o : Offer) (evt : BmDfuEvent) : Offer where
  world := consume env evt o.world
  acked :=
    if o.world.acks < (consume env evt o.world).acks then
      evt.buf.map fun buf => imgInfo env.beyond buf.bytes
    else o.acked

def Offer.run (env : Env) (w : World) (evts : List BmDfuEvent) : Offer :=
  evts.foldl (Offer.step env) { world := w, acked := none }

/-- A client that has acknowledged a Start frame and not yet come to an end. -/
def BmDfuState.updating : BmDfuState → Bool
  | .clientReceiving | .clientValidating | .clientRebootReq | .clientActivating => true
  | _ => false

/-- While an update runs, the parameters in force are those of the acknowledged Start frame. -/
def Offer.InForce (o : Offer) : Prop :=
  o.world.core.currentState.updating = true →
    ∃ info ∈ o.acked, o.world.params = .ofStart info

instance (o : Offer) : Decidable o.InForce :=
  inferInstanceAs (Decidable (_ → ∃ info ∈ o.acked, _))

/-- The condition on a step: a Start frame acknowledged in Receiving repeats the parameters. -/
def RepeatsStart (env : Env) (w : World) (evt : BmDfuEvent) : Prop :=
  w.core.currentState = .clientReceiving → evt.type = .receivedUpdateRequest →
    env.timerStop w.log.length = .ok →
    ∃ buf ∈ evt.buf, w.params = .ofStart (imgInfo env.beyond buf.bytes)

instance (env : Env) (w : World) (evt : BmDfuEvent) : Decidable (RepeatsStart env w evt) :=
  inferInstanceAs (Decidable (_ → _ → _ → ∃ buf ∈ evt.buf, _))

/-! ## What each function does to parameters and Acks -/

/-- Neither parameters nor Acks change. -/
structure SameOffer (w u : World) : Prop where
  params : u.params = w.params
  acks : u.acks = w.acks

namespace SameOffer
variable {w u v : World}

theorem refl (w : World) : SameOffer w w := ⟨rfl, rfl⟩

theorem trans (h : SameOffer w u) (g : SameOffer u v) : SameOffer w v :=
  ⟨g.params.trans h.params, g.acks.trans h.acks⟩

end SameOffer

section
variable (env : Env) (w : World)

theorem sameOffer_setPending (s : BmDfuState) : SameOffer w (bmDfuSetPendingStateChange s w) :=
  ⟨by simp [World.params], by simp [World.acks, World.seen]⟩

theorem sameOffer_error (err : BmDfuErr) :
    SameOffer w (bmDfuClientTransitionToError env err w) :=
  ⟨by simp [World.params], by simp [World.acks, World.seen]⟩

theorem sameOffer_timerErrCheck (call : BmErr × World) :
    SameOffer call.2 (clientTimerErrCheck env call).2 := by
  unfold clientTimerErrCheck
  split
  · exact sameOffer_error env _ _
  · exact .refl _

theorem sameOffer_pages {u : World} (hframe : SameButPages w u)
    (hseen : u.seen Effect.isSuccessAck = w.seen Effect.isSuccessAck) : SameOffer w u := by
  refine ⟨?_, by rw [World.acks, hseen]; rfl⟩
  simp only [World.params, hframe.imageSize, hframe.numChunks, hframe.crc16, hframe.rebootInfo]

theorem sameOffer_nextChunk : SameOffer w (clientNextChunk env w).2 := by
  unfold clientNextChunk
  dsimp only
  split
  · refine SameOffer.trans ?_ (sameOffer_timerErrCheck env _)
    exact ⟨rfl, by simp⟩
  · generalize hv : w.withClient { w.client with
      currentChunk := (w.client.currentChunk + 1) % 2 ^ 16, chunkRetryNum := 0 } = v
    have hcount : SameOffer w v := by
      subst hv
      exact ⟨rfl, rfl⟩
    have hend := hcount.trans (sameOffer_pages v (bmDfuProcessEnd_frame env v)
      (bmDfuProcessEnd_seen (fun _ _ _ => rfl) env v rfl))
    split
    · exact hend.trans (sameOffer_error env _ _)
    · exact hend.trans (sameOffer_setPending _ _)

theorem sameOffer_acceptChunk (payload : List UInt8) :
    SameOffer w (clientAcceptChunk env payload w).2 := by
  unfold clientAcceptChunk
  dsimp only
  generalize hv : w.withClient { w.client with
    chunkLength := payload.length
    runningCrc16 := crc16Ccitt w.client.runningCrc16 payload } = v
  have hcrc : SameOffer w v := by
    subst hv
    exact ⟨rfl, rfl⟩
  have hpay := hcrc.trans (sameOffer_pages v (bmDfuProcessPayload_frame env payload v)
    (bmDfuProcessPayload_seen (fun _ _ _ => rfl) env v payload))
  refine SameOffer.trans ?_ (sameOffer_nextChunk env _)
  split
  · exact hpay.trans (sameOffer_error env _ _)
  · exact hpay

/-- In Receiving only a Start frame is acknowledged, and nothing changes the parameters. -/
theorem receivingRun_params : (sClientReceivingRun env w).2.params = w.params := by
  unfold sClientReceivingRun clientChunkTimeout clientResync
  dsimp only
  split
  · split
    · rfl
    · split
      · exact (sameOffer_error env _ _).params
      · exact (sameOffer_acceptChunk env _ _).params
  · split
    · exact (sameOffer_error env _ _).params
    · exact (sameOffer_timerErrCheck env _).params
  · split
    · exact (sameOffer_error env _ _).params
    · exact (sameOffer_timerErrCheck env _).params
  · exact (sameOffer_timerErrCheck env _).params
  · rfl

theorem receivingRun_acks (h : ¬ (w.core.currentEvent.type = .receivedUpdateRequest ∧
    env.timerStop w.log.length = .ok)) : (sClientReceivingRun env w).2.acks = w.acks := by
  unfold sClientReceivingRun clientChunkTimeout
  dsimp only [bmDfuGetCurrentEvent]
  split
  · split
    · rfl
    · split
      · rw [(sameOffer_error env _ _).acks]
        simp
      · rw [(sameOffer_acceptChunk env _ _).acks]
        simp
  · split
    · rw [(sameOffer_error env _ _).acks]
      simp [bcmpDFUAbortMessage, bcmpDFUAckMessage]
    · rw [(sameOffer_timerErrCheck env _).acks]
      simp
  next ht =>
    split
    · rw [(sameOffer_error env _ _).acks]
      simp
    next hstop => exact absurd ⟨ht, not_not.mp hstop⟩ h
  · rw [(sameOffer_timerErrCheck env _).acks]
    simp
  · rfl

/-- The restart acknowledges the Start frame. -/
theorem clientResync_acks : (clientResync env w).2.acks = w.acks + 1 := by
  unfold clientResync
  dsimp only
  rw [(sameOffer_timerErrCheck env _).acks]
  simp

theorem clientResync_pending (hpend : w.core.pendingStateChange = false)
    (hp : (clientResync env w).2.core.pendingStateChange = true) :
    (clientResync env w).2.core.newState = .error := by
  unfold clientResync clientTimerErrCheck at hp ⊢
  dsimp only at hp ⊢
  split at hp
  next hfail =>
    rw [if_pos hfail]
    simp
  · simp [hpend] at hp

theorem sameOffer_rebootReqRun : SameOffer w (sClientRebootReqRun env w).2 := by
  unfold sClientRebootReqRun
  dsimp only
  split
  · refine SameOffer.trans ?_ (sameOffer_setPending _ _)
    exact ⟨rfl, by simp⟩
  · exact .refl w
  · split
    · refine SameOffer.trans ?_ (sameOffer_error env _ _)
      exact ⟨rfl, by simp [bcmpDFUAbortMessage, bcmpDFUAckMessage]⟩
    · exact ⟨rfl, by simp⟩
  · exact .refl w

theorem sameOffer_validatingEntry : SameOffer w (sClientValidatingEntry env w).2 := by
  unfold sClientValidatingEntry
  dsimp only
  split
  · refine SameOffer.trans ?_ (sameOffer_error env _ _)
    exact ⟨rfl, by simp [bcmpDFUEndMessage, bcmpDFUAckMessage]⟩
  · split
    · exact sameOffer_setPending w _
    · refine SameOffer.trans ?_ (sameOffer_error env _ _)
      exact ⟨rfl, by simp [bcmpDFUEndMessage, bcmpDFUAckMessage]⟩

theorem sameOffer_rebootReqEntry : SameOffer w (sClientRebootReqEntry env w).2 :=
  ⟨rfl, by simp [sClientRebootReqEntry]⟩

end

/-! ## One step -/

variable {env : Env}

/-- What is known between steps. -/
structure Offer.Inv (o : Offer) : Prop where
  settled : Settled o.world
  inForce : o.InForce

/-- A step that sends no success Ack and keeps the parameters keeps what is in force. -/
theorem Offer.InForce.of_same {o : Offer} (h : o.InForce)
    (hs : o.world.core.currentState.updating = true) {evt : BmDfuEvent}
    (hsame : SameOffer o.world (consume env evt o.world)) : (o.step env evt).InForce := by
  intro _
  obtain ⟨info, hacked, hparams⟩ := h hs
  refine ⟨info, ?_, hsame.params.trans hparams⟩
  simp only [Offer.step]
  rw [if_neg (by rw [hsame.acks]; omega)]
  exact hacked

/-- Taking a Start frame in Idle acknowledges it and brings its parameters into force. -/
theorem receivingEntry_params {w u : World} {buf : BmDfuBuf} (h : StartTaken env buf w u) :
    (sClientReceivingEntry env (u.entering .clientReceiving)).2.params =
        .ofStart (imgInfo env.beyond buf.bytes) ∧
      w.acks < (sClientReceivingEntry env (u.entering .clientReceiving)).2.acks := by
  have hentry : SameOffer u (sClientReceivingEntry env (u.entering .clientReceiving)).2 := by
    refine ⟨rfl, ?_⟩
    simp [sClientReceivingEntry]
    rfl
  obtain ⟨r, hlog⟩ := h.log
  have hacks : u.acks = w.acks + 1 := by
    have hdiv : (recordDivision (imgInfo env.beyond buf.bytes) w).acks = w.acks := by
      unfold recordDivision
      split
      · simp [Effect.isSuccessAck]
      · rfl
    rw [← hdiv]
    simp [World.acks, World.seen, hlog]
  refine ⟨?_, by rw [hentry.acks]; omega⟩
  rw [hentry.params]
  simp [World.params, UpdateParams.ofStart, h.client, h.rebootInfo]

/-- A step without a transition keeps what is in force. -/
theorem Offer.Inv.step_stay {o : Offer} (h : o.Inv) {evt : BmDfuEvent}
    (hrep : RepeatsStart env o.world evt)
    (hs : (o.world.afterRun env evt).core.currentState = o.world.core.currentState)
    (hu : consume env evt o.world = o.world.afterRun env evt) : (o.step env evt).InForce := by
  intro hupd
  have hupd' : o.world.core.currentState.updating = true := by
    rw [← hs, ← hu]
    exact hupd
  cases hst : o.world.core.currentState with
  | clientReceiving =>
    have hafter : o.world.afterRun env evt =
        (sClientReceivingRun env (o.world.withEvent evt)).2 := by
      simp [World.afterRun, hst, dfuStates]
    have hparams : (consume env evt o.world).params = o.world.params := by
      rw [hu, hafter]
      exact receivingRun_params env (o.world.withEvent evt)
    by_cases hstart : evt.type = .receivedUpdateRequest ∧ env.timerStop o.world.log.length = .ok
    · -- the frame is acknowledged without being read, but it repeats the parameters
      obtain ⟨buf, hbuf, hsame⟩ := hrep hst hstart.1 hstart.2
      have hacks : o.world.acks < (consume env evt o.world).acks := by
        have he : (o.world.withEvent evt).core.currentEvent =
            { type := .receivedUpdateRequest, buf := evt.buf } := by
          rw [← hstart.1]
          rfl
        have hstop : env.timerStop (o.world.withEvent evt).log.length = .ok := hstart.2
        rw [hu, hafter, receivingRun_updateRequest he, if_neg (not_not.mpr hstop),
          clientResync_acks]
        show o.world.acks < (o.world.emit _).acks + 1
        simp
      refine ⟨imgInfo env.beyond buf.bytes, ?_, hparams.trans hsame⟩
      simp only [Offer.step]
      rw [if_pos hacks, hbuf]
      rfl
    · refine h.inForce.of_same hupd' ⟨hparams, ?_⟩ hupd
      rw [hu, hafter]
      exact receivingRun_acks env (o.world.withEvent evt) hstart
  | clientRebootReq =>
    refine h.inForce.of_same hupd' ?_ hupd
    rw [hu]
    simp only [World.afterRun, hst, dfuStates]
    have hrun := sameOffer_rebootReqRun env (o.world.withEvent evt)
    exact ⟨hrun.params, hrun.acks⟩
  | clientValidating | clientActivating =>
    refine h.inForce.of_same hupd' ?_ hupd
    rw [hu]
    simp only [World.afterRun, hst, dfuStates]
    exact ⟨rfl, rfl⟩
  | _ =>
    rw [hst] at hupd'
    cases hupd'

/-- A client that goes on to validate has not been sent back to the first chunk by a Start. -/
theorem receivingRun_toValidating {w : World} (hpending : w.core.pendingStateChange = false)
    (hp : (sClientReceivingRun env w).2.core.pendingStateChange = true)
    (hst : (sClientReceivingRun env w).2.core.newState = .clientValidating) :
    ¬ (w.core.currentEvent.type = .receivedUpdateRequest ∧
      env.timerStop w.log.length = .ok) := by
  rintro ⟨htype, hstop⟩
  have he : w.core.currentEvent =
      { type := .receivedUpdateRequest, buf := w.core.currentEvent.buf } := by
    rw [← htype]
  rw [receivingRun_updateRequest he, if_neg (not_not.mpr hstop)] at hp hst
  have herr := clientResync_pending env (bmTimerStop env .chunk w).2 hpending hp
  rw [herr] at hst
  cases hst

/-- A transition keeps what is in force. -/
theorem Offer.Inv.step_move {o : Offer} (h : o.Inv) {evt : BmDfuEvent}
    (hp : (o.world.afterRun env evt).core.pendingStateChange = true)
    (hs : (o.world.afterRun env evt).core.currentState = o.world.core.currentState)
    (hnew : (o.world.afterRun env evt).core.newState ∈ nextStates o.world.core.currentState)
    (hu : consume env evt o.world = (o.world.afterRun env evt).moved env) :
    (o.step env evt).InForce := by
  intro hupd
  have hupd' : (o.world.afterRun env evt).core.newState.updating = true := by
    rw [← moved_currentState env, ← hu]
    exact hupd
  cases hst : (o.world.afterRun env evt).core.newState with
  | clientReceiving =>
    rw [hst] at hnew
    have hidle := eq_idle_of_receiving hnew
    have hafter : o.world.afterRun env evt = (sIdleRun env (o.world.withEvent evt)).2 := by
      simp [World.afterRun, hidle, dfuStates]
    obtain ⟨buf, hevt, -, htaken⟩ := idleRun_toReceiving (w := o.world.withEvent evt)
      (h.settled.pending_eq_false hidle (by decide)) (hafter ▸ hp) (hafter ▸ hst)
    have hmoved : consume env evt o.world = (sClientReceivingEntry env
        ((o.world.afterRun env evt).entering .clientReceiving)).2 := by
      rw [hu, moved_eq_entry env (hs.trans hidle) (by decide) hst]
      rfl
    have hevt' : evt = { type := .receivedUpdateRequest, buf := some buf } := hevt
    obtain ⟨hparams, hacks⟩ := receivingEntry_params htaken
    rw [← hafter, ← hmoved] at hparams hacks
    change o.world.acks < _ at hacks
    refine ⟨imgInfo env.beyond buf.bytes, ?_, hparams⟩
    simp only [Offer.step]
    rw [if_pos hacks, hevt']
    rfl
  | clientValidating =>
    rw [hst] at hnew
    have hrecv := eq_receiving_of_validating hnew
    have hafter : o.world.afterRun env evt =
        (sClientReceivingRun env (o.world.withEvent evt)).2 := by
      simp [World.afterRun, hrecv, dfuStates]
    have hno := receivingRun_toValidating (w := o.world.withEvent evt)
      (h.settled.pending_eq_false hrecv (by decide)) (hafter ▸ hp) (hafter ▸ hst)
    refine h.inForce.of_same (by rw [hrecv]; rfl) ?_ hupd
    rw [hu, moved_eq_entry env (hs.trans hrecv) (by decide) hst]
    refine SameOffer.trans ?_ (sameOffer_validatingEntry env _)
    rw [hafter]
    exact ⟨receivingRun_params env (o.world.withEvent evt),
      receivingRun_acks env (o.world.withEvent evt) hno⟩
  | clientRebootReq =>
    rw [hst] at hnew
    have hval := eq_validating_of_rebootReq hnew
    refine h.inForce.of_same (by rw [hval]; rfl) ?_ hupd
    rw [hu, moved_eq_entry env (hs.trans hval) (by decide) hst]
    refine SameOffer.trans ?_ (sameOffer_rebootReqEntry env _)
    simp only [World.afterRun, hval, dfuStates]
    exact ⟨rfl, rfl⟩
  | clientActivating =>
    rw [hst] at hnew
    have hreq := eq_rebootReq_of_activating hnew
    refine h.inForce.of_same (by rw [hreq]; rfl) ?_ hupd
    rw [hu, moved_eq_entry env (hs.trans hreq) (by decide) hst]
    have hrun := sameOffer_rebootReqRun env (o.world.withEvent evt)
    have hafter : o.world.afterRun env evt =
        (sClientRebootReqRun env (o.world.withEvent evt)).2 := by
      simp [World.afterRun, hreq, dfuStates]
    rw [← hafter] at hrun
    refine ⟨hrun.params, ?_⟩
    have : ((o.world.afterRun env evt).emit .setPendingAndReset).acks =
        (o.world.afterRun env evt).acks := by simp [Effect.isSuccessAck]
    exact this.trans hrun.acks
  | _ =>
    rw [hst] at hupd'
    cases hupd'

theorem Offer.Inv.step {o : Offer} (h : o.Inv) {evt : BmDfuEvent}
    (hrep : RepeatsStart env o.world evt) : (o.step env evt).Inv := by
  refine ⟨consume_settled env evt h.settled, ?_⟩
  obtain ⟨hs, ⟨-, hu⟩ | ⟨hp, hnew, hu⟩⟩ := consume_cases env evt h.settled
  · exact h.step_stay hrep hs hu
  · exact h.step_move hp hs hnew hu

/-- In every run whose Start frames received in Receiving repeat the parameters in force, the
parameters in force while an update runs are those of the Start frame acknowledged last. -/
theorem acked_params_inForce (env : Env) (self : UInt64) (info : RebootClientUpdateInfo)
    (flash : Nat → UInt8) (evts : List BmDfuEvent)
    (hrep : Along (Offer.step env) (fun o evt => RepeatsStart env o.world evt)
      { world := bmDfuInit self info flash, acked := none } evts) :
    (Offer.run env (bmDfuInit self info flash) evts).InForce := by
  have hinit : Offer.Inv { world := bmDfuInit self info flash, acked := none } :=
    ⟨(fun h => by cases h), (fun h => by cases h)⟩
  exact (foldl_invariant (fun o evt h hr => h.step hr) hinit hrep).inForce

theorem acked_params_inForce_oneByte :
    let o := Offer.run (Env.steady 1 4096 []) (bmDfuInit 7 .zero fun _ => 0) oneByteUpdate
    o.world.core.currentState = .clientRebootReq ∧ o.InForce :=
  ⟨by decide +kernel,
    acked_params_inForce (Env.steady 1 4096 []) 7 .zero (fun _ => 0) oneByteUpdate
      (by decide +kernel)⟩

/-- A host that starts with an image of two bytes and then with one of three bytes. -/
def changedStart : List BmDfuEvent :=
  [{ type := .initSuccess },
    .ofFrame .receivedUpdateRequest (startFrame 9 7 ⟨2, 1, 0x1111, 1, 0, 0, 2⟩),
    .ofFrame .receivedUpdateRequest (startFrame 9 7 ⟨3, 1, 0x2222, 2, 0, 0, 3⟩)]

theorem changedStart_not_inForce :
    ¬ (Offer.run (Env.steady 1 4096 []) (bmDfuInit 7 .zero fun _ => 0) changedStart).InForce := by
  decide +kernel

end BmCore.Dfu
