import BmCore.Dfu.Transitions

/-!
# The two roles do not touch each other

A state function of the client leaves the host context and the completion callbacks alone, a
state function of the host leaves the client context, the reboot record and the flash alone, and
neither makes a call that belongs to the other. The proofs about one role use these frame
conditions for every step of the other.
-/
namespace BmCore.Dfu
open Library

/-- A call the client role makes, short of activating the image. -/
def Effect.ofClient : Effect → Bool
  | .timerStart .. | .timerStop .. | .timerChangePeriod .. | .tx .. => true
  | .flashAreaOpen _ | .flashAreaClose | .flashAreaErase .. | .flashAreaWrite .. => true
  | .setConfirmed | .failUpdateAndReset | .confirmEnable _ => true
  | .divisionByZero => true
  | _ => false

/-- A call the host role makes; a host sends no Ack. -/
def Effect.ofHost : Effect → Bool
  | .timerStart .. | .timerStop .. | .timerChangePeriod .. => true
  | .tx f _ => f.head? != some bcmpDFUAckMessage
  | .hostGetChunk .. | .malloc _ | .free _ => true
  | .streamBufferCreate _ | .streamBufferDelete | .streamBufferReceive _ => true
  | _ => false

/-- What a step of the client role leaves alone. -/
structure ClientOnly (w u : World) : Prop where
  host : u.host = w.host
  updateFinishCallback : u.core.updateFinishCallback = w.core.updateFinishCallback
  seen : u.seen (fun e => !e.ofClient) = w.seen (fun e => !e.ofClient)
  queue : NopsAdded w.queue u.queue
  log : w.log <:+ u.log

/-- What a step of the host role leaves alone. -/
structure HostOnly (w u : World) : Prop where
  client : u.client = w.client
  rebootInfo : u.rebootInfo = w.rebootInfo
  flash : u.flash = w.flash
  updateFinishCallback : u.core.updateFinishCallback = w.core.updateFinishCallback
  updateCompleteCallback : u.host.updateCompleteCallback = w.host.updateCompleteCallback
  seen : u.seen (fun e => !e.ofHost) = w.seen (fun e => !e.ofHost)
  queue : NopsAdded w.queue u.queue
  log : w.log <:+ u.log

theorem ClientOnly.refl (w : World) : ClientOnly w w := ⟨rfl, rfl, rfl, .refl _, List.suffix_rfl⟩

theorem ClientOnly.trans {w u v : World} (h : ClientOnly w u) (g : ClientOnly u v) :
    ClientOnly w v :=
  ⟨g.host.trans h.host, g.updateFinishCallback.trans h.updateFinishCallback,
    g.seen.trans h.seen, h.queue.trans g.queue, h.log.trans g.log⟩

theorem HostOnly.refl (w : World) : HostOnly w w :=
  ⟨rfl, rfl, rfl, rfl, rfl, rfl, .refl _, List.suffix_rfl⟩

theorem HostOnly.trans {w u v : World} (h : HostOnly w u) (g : HostOnly u v) : HostOnly w v :=
  ⟨g.client.trans h.client, g.rebootInfo.trans h.rebootInfo, g.flash.trans h.flash,
    g.updateFinishCallback.trans h.updateFinishCallback,
    g.updateCompleteCallback.trans h.updateCompleteCallback, g.seen.trans h.seen,
    h.queue.trans g.queue, h.log.trans g.log⟩

/-- A selection that sees no call of the role sees nothing new. -/
theorem seen_eq_of_sub {p q : Effect → Bool} (hpq : ∀ e, p e = true → q e = true) {w u : World}
    (h : u.seen q = w.seen q) : u.seen p = w.seen p := by
  have hp : ∀ l : List Effect, (l.filter q).filter p = l.filter p := by
    intro l
    rw [List.filter_filter]
    apply List.filter_congr
    intro e _
    cases hpe : p e with
    | false => simp
    | true => simp [hpq e hpe]
  have := congrArg (List.filter p) h
  simpa only [World.seen, hp] using this

theorem ClientOnly.seen_of {p : Effect → Bool} (hp : ∀ e, p e = true → e.ofClient = false)
    {w u : World} (h : ClientOnly w u) : u.seen p = w.seen p :=
  seen_eq_of_sub (fun e he => by simp [hp e he]) h.seen

theorem HostOnly.seen_of {p : Effect → Bool} (hp : ∀ e, p e = true → e.ofHost = false)
    {w u : World} (h : HostOnly w u) : u.seen p = w.seen p :=
  seen_eq_of_sub (fun e he => by simp [hp e he]) h.seen

/-! ## Client functions -/

section Client
variable (env : Env) (w : World)

theorem clientOnly_withClient (c : DfuClientCtx) : ClientOnly w (w.withClient c) :=
  ⟨rfl, rfl, rfl, .refl _, List.suffix_rfl⟩

theorem clientOnly_emit {e : Effect} (he : e.ofClient = true) : ClientOnly w (w.emit e) :=
  ⟨rfl, rfl, by simp [World.seen, he], .refl _, List.suffix_cons e _⟩

theorem clientOnly_setPending (s : BmDfuState) :
    ClientOnly w (bmDfuSetPendingStateChange s w) :=
  ⟨by simp, by simp, by simp [World.seen], nopsAdded_setPending s w,
    by simp⟩

theorem clientOnly_error (err : BmDfuErr) :
    ClientOnly w (bmDfuClientTransitionToError env err w) :=
  ⟨by simp, by simp, by simp [World.seen, Effect.ofClient], nopsAdded_clientError env err w,
    by simp⟩

theorem clientOnly_timerErrCheck (call : BmErr × World) :
    ClientOnly call.2 (clientTimerErrCheck env call).2 := by
  unfold clientTimerErrCheck
  split
  · exact clientOnly_error env _ _
  · exact .refl _

theorem clientOnly_processPayload (buf : List UInt8) :
    ClientOnly w (bmDfuProcessPayload env buf w).2 := by
  have h := bmDfuProcessPayload_frame env buf w
  exact ⟨h.host, by rw [h.core], bmDfuProcessPayload_seen (fun _ _ _ => rfl) env w buf,
    h.queue ▸ .refl _, h.log⟩

theorem clientOnly_processEnd : ClientOnly w (bmDfuProcessEnd env w).2 := by
  have h := bmDfuProcessEnd_frame env w
  exact ⟨h.host, by rw [h.core], bmDfuProcessEnd_seen (fun _ _ _ => rfl) env w rfl,
    h.queue ▸ .refl _, h.log⟩

theorem clientOnly_prepareSlot (info : BmDfuImgInfo) :
    ClientOnly w (clientPrepareSlot env info w) := by
  unfold clientPrepareSlot
  dsimp only
  split
  · split
    · refine ClientOnly.trans ?_ (clientOnly_error env _ _)
      exact ⟨rfl, rfl, by simp [World.seen, Effect.ofClient], .refl _,
        by simp [List.suffix_cons_iff]⟩
    · refine ClientOnly.trans ?_ (clientOnly_setPending _ _)
      exact ⟨rfl, rfl, by simp [World.seen, Effect.ofClient], .refl _,
        by simp [List.suffix_cons_iff]⟩
  · exact clientOnly_emit w rfl

theorem clientOnly_division (info : BmDfuImgInfo) : ClientOnly w (recordDivision info w) := by
  unfold recordDivision
  split
  · exact clientOnly_emit w rfl
  · exact .refl w

theorem clientOnly_takeStart (info : BmDfuImgInfo) :
    ClientOnly w (clientTakeStart env info w) := by
  unfold clientTakeStart
  dsimp only
  refine (clientOnly_division w info).trans ?_
  split
  · refine ClientOnly.trans ?_ (clientOnly_error env _ _)
    exact ⟨rfl, rfl, by simp [World.seen, Effect.ofClient], .refl _, by simp [List.suffix_cons_iff]⟩
  · refine ClientOnly.trans ?_ (clientOnly_prepareSlot env _ info)
    exact ⟨rfl, rfl, by simp [World.seen, Effect.ofClient], .refl _, by simp⟩

theorem clientOnly_processUpdateRequest :
    ClientOnly w (bmDfuClientProcessUpdateRequest env w) := by
  unfold bmDfuClientProcessUpdateRequest
  dsimp only
  split
  · exact .refl w
  · split
    · split
      · refine ClientOnly.trans ?_ (clientOnly_error env _ _)
        exact ⟨by simp, by simp, by simp [World.seen, Effect.ofClient], .of_eq (by simp),
          by simp⟩
      · refine ClientOnly.trans ?_ (clientOnly_takeStart env _ _)
        exact clientOnly_withClient w _
    · exact ⟨by simp, by simp, by simp [World.seen, Effect.ofClient], .of_eq (by simp),
          by simp⟩

theorem clientOnly_nextChunk : ClientOnly w (clientNextChunk env w).2 := by
  unfold clientNextChunk
  dsimp only
  split
  · refine ClientOnly.trans ?_ (clientOnly_timerErrCheck env _)
    exact ⟨rfl, rfl, by simp [World.seen, Effect.ofClient], .refl _, by simp [List.suffix_cons_iff]⟩
  · have hend := (clientOnly_withClient w { w.client with
      currentChunk := (w.client.currentChunk + 1) % 2 ^ 16, chunkRetryNum := 0 }).trans
      (clientOnly_processEnd env _)
    split
    · exact hend.trans (clientOnly_error env _ _)
    · exact hend.trans (clientOnly_setPending _ _)

theorem clientOnly_acceptChunk (payload : List UInt8) :
    ClientOnly w (clientAcceptChunk env payload w).2 := by
  unfold clientAcceptChunk
  dsimp only
  have hpay := (clientOnly_withClient w { w.client with
    chunkLength := payload.length
    runningCrc16 := crc16Ccitt w.client.runningCrc16 payload }).trans
    (clientOnly_processPayload env _ payload)
  refine ClientOnly.trans ?_ (clientOnly_nextChunk env _)
  split
  · exact hpay.trans (clientOnly_error env _ _)
  · exact hpay

theorem clientOnly_receivingRun : ClientOnly w (sClientReceivingRun env w).2 := by
  unfold sClientReceivingRun clientChunkTimeout clientResync
  dsimp only
  split
  · split
    · exact .refl w
    · split
      · exact (clientOnly_emit w rfl).trans (clientOnly_error env _ _)
      · exact (clientOnly_emit w rfl).trans (clientOnly_acceptChunk env _ _)
  · split
    · refine ClientOnly.trans ?_ (clientOnly_error env _ _)
      exact ⟨rfl, rfl, by simp [World.seen, Effect.ofClient], .refl _, by simp⟩
    · refine ClientOnly.trans ?_ (clientOnly_timerErrCheck env _)
      exact ⟨rfl, rfl, by simp [World.seen, Effect.ofClient], .refl _,
        by simp [List.suffix_cons_iff]⟩
  · split
    · exact (clientOnly_emit w rfl).trans (clientOnly_error env _ _)
    · refine ClientOnly.trans ?_ (clientOnly_timerErrCheck env _)
      exact ⟨rfl, rfl, by simp [World.seen, Effect.ofClient], .refl _,
        by simp [List.suffix_cons_iff]⟩
  · refine ClientOnly.trans ?_ (clientOnly_timerErrCheck env _)
    exact clientOnly_emit w rfl
  · exact .refl w

theorem clientOnly_rebootReqRun : ClientOnly w (sClientRebootReqRun env w).2 := by
  unfold sClientRebootReqRun
  dsimp only
  split
  · exact (clientOnly_emit w rfl).trans (clientOnly_setPending _ _)
  · exact .refl w
  · split
    · refine ClientOnly.trans ?_ (clientOnly_error env _ _)
      exact ⟨rfl, rfl, by simp [World.seen, Effect.ofClient], .refl _, by simp⟩
    · exact ⟨rfl, rfl, by simp [World.seen, Effect.ofClient], .refl _,
        by simp [List.suffix_cons_iff]⟩
  · exact .refl w

theorem clientOnly_updateDoneRun : ClientOnly w (sClientUpdateDoneRun env w).2 := by
  unfold sClientUpdateDoneRun bmDfuClientFailUpdateAndReboot
  dsimp only
  split
  · refine ClientOnly.trans ?_ (clientOnly_setPending _ _)
    exact ⟨rfl, rfl, by simp [World.seen, Effect.ofClient], .refl _, by simp [List.suffix_cons_iff]⟩
  · exact .refl w
  · split <;> exact ⟨rfl, rfl, by simp [World.seen, Effect.ofClient], .refl _,
      by simp [List.suffix_cons_iff]⟩
  · exact .refl w

theorem clientOnly_receivingEntry : ClientOnly w (sClientReceivingEntry env w).2 :=
  ⟨rfl, rfl, by simp [sClientReceivingEntry, World.seen, Effect.ofClient], .refl _,
    by simp [sClientReceivingEntry, List.suffix_cons_iff]⟩

theorem clientOnly_validatingEntry : ClientOnly w (sClientValidatingEntry env w).2 := by
  unfold sClientValidatingEntry
  dsimp only
  split
  · exact (clientOnly_emit w rfl).trans (clientOnly_error env _ _)
  · split
    · exact clientOnly_setPending w _
    · exact (clientOnly_emit w rfl).trans (clientOnly_error env _ _)

theorem clientOnly_rebootReqEntry : ClientOnly w (sClientRebootReqEntry env w).2 :=
  ⟨rfl, rfl, by simp [sClientRebootReqEntry, World.seen, Effect.ofClient], .refl _,
    by simp [sClientRebootReqEntry, List.suffix_cons_iff]⟩

theorem clientOnly_updateDoneEntry : ClientOnly w (sClientUpdateDoneEntry env w).2 := by
  unfold sClientUpdateDoneEntry bmDfuClientConfirmEnable bmDfuClientFailUpdateAndReboot
  dsimp only
  split
  · split <;> exact ⟨rfl, rfl, by simp [World.seen, Effect.ofClient], .refl _,
      by simp [List.suffix_cons_iff]⟩
  · exact ⟨rfl, rfl, by simp [World.seen, Effect.ofClient], .refl _, by simp [List.suffix_cons_iff]⟩

end Client

/-! ## Host functions -/

section Host
variable (env : Env) (w : World)

theorem hostOnly_emit {e : Effect} (he : e.ofHost = true) : HostOnly w (w.emit e) :=
  ⟨rfl, rfl, rfl, rfl, rfl, by simp [World.seen, he], .refl _, List.suffix_cons e _⟩

theorem hostOnly_setPending (s : BmDfuState) : HostOnly w (bmDfuSetPendingStateChange s w) :=
  ⟨by simp, by simp, by simp, by simp, by simp, by simp [World.seen], nopsAdded_setPending s w,
    by simp⟩

theorem hostOnly_error (err : BmDfuErr) : HostOnly w (bmDfuHostTransitionToError env err w) :=
  ⟨by simp, by simp, by simp, by simp, by simp, hostError_seen env err w fun _ _ => rfl,
    nopsAdded_hostError env err w, hostError_suffix env err w⟩

theorem hostOnly_timerErrCheck (call : BmErr × World) :
    HostOnly call.2 (hostTimerErrCheck env call).2 := by
  unfold hostTimerErrCheck
  split
  · exact hostOnly_error env _ _
  · exact .refl _

theorem hostOnly_fillChunk (len : Nat) : HostOnly w (fillChunk env len w).2.2.2 := by
  unfold fillChunk
  dsimp only
  split
  · exact hostOnly_emit w rfl
  · split
    · exact ⟨rfl, rfl, rfl, rfl, rfl, by simp [World.seen, Effect.ofHost], .refl _, by simp⟩
    · exact .refl w

theorem hostOnly_sendChunk (req : List UInt8) :
    HostOnly w (bmDfuHostSendChunk env req w).2 := by
  have hfill : HostOnly w (fillChunk env (chunkPayloadLen w.host) (bmMalloc env w).2).2.2.2 :=
    (hostOnly_emit w rfl).trans (hostOnly_fillChunk env _ _)
  unfold bmDfuHostSendChunk bmFree
  dsimp only
  split
  · exact hostOnly_emit w rfl
  · split
    · exact (hfill.trans (hostOnly_error env _ _)).trans (hostOnly_emit _ rfl)
    · split
      · exact hfill.trans
          ⟨rfl, rfl, rfl, rfl, rfl, by simp [World.seen, Effect.ofHost, payloadFrame, frameHeader,
            bcmpDFUPayloadMessage, bcmpDFUAckMessage], .refl _, by simp [List.suffix_cons_iff]⟩
      · refine HostOnly.trans ?_ (hostOnly_emit _ rfl)
        refine HostOnly.trans ?_ (hostOnly_error env _ _)
        exact hfill.trans (hostOnly_emit _ rfl)

theorem hostOnly_reqUpdateRun : HostOnly w (sHostReqUpdateRun env w).2 := by
  unfold sHostReqUpdateRun
  dsimp only
  split
  · split
    · exact (hostOnly_emit w rfl).trans (hostOnly_error env _ _)
    · split
      · split
        · exact (hostOnly_emit w rfl).trans (hostOnly_setPending _ _)
        · exact (hostOnly_emit w rfl).trans (hostOnly_error env _ _)
      · exact hostOnly_emit w rfl
  · split
    · refine HostOnly.trans ?_ (hostOnly_error env _ _)
      exact ⟨rfl, rfl, rfl, rfl, rfl, rfl, .refl _, List.suffix_rfl⟩
    · refine HostOnly.trans ?_ (hostOnly_timerErrCheck env _)
      exact ⟨rfl, rfl, rfl, rfl, rfl, by simp [World.seen, Effect.ofHost, startFrame, frameHeader,
        bcmpDFUStartMessage, bcmpDFUAckMessage], .refl _, by simp [List.suffix_cons_iff]⟩
  · exact hostOnly_error env w _
  · exact .refl w

/-- Every host step but the end of an update leaves the callbacks alone. -/
theorem hostOnly_hostUpdateRun (h : w.core.currentEvent.type ≠ .updateEnd) :
    HostOnly w (sHostUpdateRun env w).2 := by
  unfold sHostUpdateRun
  dsimp only [bmDfuGetCurrentEvent]
  split
  · split
    next buf _ =>
      split
      · exact (hostOnly_emit w rfl).trans (hostOnly_error env _ _)
      · refine HostOnly.trans ?_ (hostOnly_timerErrCheck env _)
        refine HostOnly.trans ?_ (hostOnly_emit _ rfl)
        exact (hostOnly_emit w rfl).trans (hostOnly_sendChunk env _ buf.bytes)
    · exact .refl w
  · exact hostOnly_emit w rfl
  · split
    · exact hostOnly_emit w rfl
    · exact .refl w
  next ht => exact absurd ht h
  · exact hostOnly_error env w _
  · exact .refl w

theorem hostOnly_reqUpdateEntry : HostOnly w (sHostReqUpdateEntry env w).2 := by
  unfold sHostReqUpdateEntry
  dsimp only
  split
  · exact .refl w
  · split <;>
      exact ⟨rfl, rfl, rfl, rfl, rfl, by simp [World.seen, Effect.ofHost, startFrame, frameHeader,
        bcmpDFUStartMessage, bcmpDFUAckMessage], .refl _, by simp [List.suffix_cons_iff]⟩

theorem hostOnly_hostUpdateEntry : HostOnly w (sHostUpdateEntry env w).2 := by
  unfold sHostUpdateEntry bmDfuHostStartUpdateTimer
  dsimp only
  split
  · exact hostOnly_emit w rfl
  · split <;> exact ⟨rfl, rfl, rfl, rfl, rfl, by simp [World.seen, Effect.ofHost], .refl _,
      by simp [List.suffix_cons_iff]⟩

theorem hostOnly_hostUpdateExit : HostOnly w (sHostUpdateExit w).2 := by
  unfold sHostUpdateExit
  split
  · exact ⟨rfl, rfl, rfl, rfl, rfl, by simp [World.seen, Effect.ofHost], .refl _, by simp⟩
  · exact .refl w

end Host

/-! ## Activation and callbacks stay out of both -/

/-- The end of an update calls the callback of the host context and makes host calls otherwise. -/
theorem hostUpdateRun_updateEnd_seen {p : Effect → Bool}
    (hp : ∀ e, p e = true → e.ofHost = false)
    (hcb : ∀ cb ok err node, p (.finishCallback cb ok err node) = false) (env : Env) (w : World)
    (h : w.core.currentEvent.type = .updateEnd) :
    (sHostUpdateRun env w).2.seen p = w.seen p := by
  have hstop : (w.emit (.timerStop .update (env.timerStop w.log.length))).seen p = w.seen p :=
    (hostOnly_emit w rfl).seen_of hp
  unfold sHostUpdateRun
  simp only [bmDfuGetCurrentEvent, h]
  split
  · exact ((hostOnly_error env _ _).seen_of hp).trans hstop
  · split
    next buf _ =>
      refine ((hostOnly_setPending _ _).seen_of hp).trans (Eq.trans ?_ hstop)
      unfold hostUpdateComplete
      split
      · simp [World.seen, hcb]
      · rfl
    · exact hstop

/-- The error state calls the callback of the core context and nothing else. -/
theorem errorEntry_seen {p : Effect → Bool}
    (hcb : ∀ cb ok err node, p (.finishCallback cb ok err node) = false) (w : World) :
    (sErrorEntry w).2.seen p = w.seen p := by
  have hfinish : (coreUpdateFinish w).seen p = w.seen p := by
    unfold coreUpdateFinish
    split
    · simp [World.seen, hcb]
    · rfl
  unfold sErrorEntry
  dsimp only
  split
  · rw [← hfinish]
    simp [World.seen]
  · exact hfinish

/-- The call that marks the slot for the next boot. -/
def Effect.isActivation : Effect → Bool
  | .setPendingAndReset => true
  | _ => false

theorem Effect.isActivation_foreign (e : Effect) (h : e.isActivation = true) :
    e.ofClient = false ∧ e.ofHost = false := by
  cases e <;> simp_all [Effect.isActivation, Effect.ofClient, Effect.ofHost]

theorem ClientOnly.seen_isActivation {w u : World} (h : ClientOnly w u) :
    u.seen Effect.isActivation = w.seen Effect.isActivation :=
  h.seen_of fun e he => (e.isActivation_foreign he).1

theorem HostOnly.seen_isActivation {w u : World} (h : HostOnly w u) :
    u.seen Effect.isActivation = w.seen Effect.isActivation :=
  h.seen_of fun e he => (e.isActivation_foreign he).2

theorem run_isActivation (env : Env) (w : World) :
    ((dfuStates env w.core.currentState).run w).2.seen Effect.isActivation =
      w.seen Effect.isActivation := by
  cases w.core.currentState with
  | init =>
    simp only [dfuStates, sInitRun]
    split
    · split <;> exact (clientOnly_setPending w _).seen_isActivation
    · rfl
  | idle =>
    simp only [dfuStates, sIdleRun]
    split
    · exact (clientOnly_processUpdateRequest env w).seen_isActivation
    · simp [World.seen, bmDfuHostSetParams]
    · rfl
  | error | clientValidating | clientActivating => rfl
  | clientReceiving => exact (clientOnly_receivingRun env w).seen_isActivation
  | clientRebootReq => exact (clientOnly_rebootReqRun env w).seen_isActivation
  | clientRebootDone => exact (clientOnly_updateDoneRun env w).seen_isActivation
  | hostReqUpdate => exact (hostOnly_reqUpdateRun env w).seen_isActivation
  | hostUpdate =>
    by_cases ht : w.core.currentEvent.type = .updateEnd
    · exact hostUpdateRun_updateEnd_seen (fun e he => (e.isActivation_foreign he).2)
        (fun _ _ _ _ => rfl) env w ht
    · exact (hostOnly_hostUpdateRun env w ht).seen_isActivation

theorem entry_isActivation (env : Env) (w : World) (hne : w.core.currentState ≠ .clientActivating) :
    (w.onEntry env).seen Effect.isActivation = w.seen Effect.isActivation := by
  unfold World.onEntry
  cases hs : w.core.currentState with
  | init | idle => rfl
  | error => exact errorEntry_seen (fun _ _ _ _ => rfl) w
  | clientReceiving => exact (clientOnly_receivingEntry env w).seen_isActivation
  | clientValidating => exact (clientOnly_validatingEntry env w).seen_isActivation
  | clientRebootReq => exact (clientOnly_rebootReqEntry env w).seen_isActivation
  | clientRebootDone => exact (clientOnly_updateDoneEntry env w).seen_isActivation
  | clientActivating => exact absurd hs hne
  | hostReqUpdate => exact (hostOnly_reqUpdateEntry env w).seen_isActivation
  | hostUpdate => exact (hostOnly_hostUpdateEntry env w).seen_isActivation

/-- Only the way from RebootReq to Activating marks the slot. -/
theorem consume_isActivation (env : Env) (evt : BmDfuEvent) {w : World} (hw : Settled w)
    (h : (consume env evt w).seen Effect.isActivation ≠ w.seen Effect.isActivation) :
    (w.afterRun env evt).core.pendingStateChange = true ∧
      (w.afterRun env evt).core.newState = .clientActivating ∧
      w.core.currentState = .clientRebootReq := by
  have hrun : (w.afterRun env evt).seen Effect.isActivation = w.seen Effect.isActivation :=
    run_isActivation env (w.withEvent evt)
  obtain ⟨hs, ⟨-, hu⟩ | ⟨hp, hnew, hu⟩⟩ := consume_cases env evt hw
  · rw [hu] at h
    exact absurd hrun h
  · by_cases hact : (w.afterRun env evt).core.newState = .clientActivating
    · rw [hact] at hnew
      exact ⟨hp, hact, eq_rebootReq_of_activating hnew⟩
    · refine absurd ?_ h
      rw [hu]
      by_cases hhost : (w.afterRun env evt).core.currentState = .hostUpdate
      · rw [moved_eq_of_hostUpdate env hhost]
        have hexit := (hostOnly_hostUpdateExit (w.afterRun env evt)).seen_isActivation
        have hentry := entry_isActivation env ((sHostUpdateExit (w.afterRun env evt)).2.entering
          (w.afterRun env evt).core.newState) hact
        exact hentry.trans (hexit.trans hrun)
      · rw [moved_eq env hhost]
        have hentry := entry_isActivation env ((w.afterRun env evt).entering
          (w.afterRun env evt).core.newState) hact
        exact hentry.trans hrun

/-! ## Flash calls -/

/-- A call to the flash area. -/
def Effect.ofFlash : Effect → Bool
  | .flashAreaOpen _ | .flashAreaClose | .flashAreaErase .. | .flashAreaWrite .. => true
  | _ => false

theorem HostOnly.ofFlash {w u : World} (h : HostOnly w u) :
    u.seen Effect.ofFlash = w.seen Effect.ofFlash := by
  apply h.seen_of
  intro e he
  cases e <;> simp_all [Effect.ofFlash, Effect.ofHost]

theorem clientTimerErrCheck_ofFlash (env : Env) (call : BmErr × World) :
    (clientTimerErrCheck env call).2.seen Effect.ofFlash = call.2.seen Effect.ofFlash := by
  unfold clientTimerErrCheck
  split
  · simp [World.seen, Effect.ofFlash]
  · rfl

/-- Outside Idle and Receiving no run function calls the flash area. -/
theorem run_ofFlash (env : Env) (w : World)
    (h : w.core.currentState ∉ [.idle, .clientReceiving]) :
    ((dfuStates env w.core.currentState).run w).2.seen Effect.ofFlash =
      w.seen Effect.ofFlash := by
  cases hs : w.core.currentState with
  | init =>
    simp only [dfuStates, sInitRun]
    split
    · split <;> simp [World.seen]
    · rfl
  | idle | clientReceiving => simp [hs] at h
  | error | clientValidating | clientActivating => rfl
  | clientRebootReq =>
    simp only [dfuStates, sClientRebootReqRun]
    split
    · simp [World.seen, Effect.ofFlash]
    · rfl
    · split <;> simp [World.seen, Effect.ofFlash]
    · rfl
  | clientRebootDone =>
    simp only [dfuStates, sClientUpdateDoneRun, bmDfuClientFailUpdateAndReboot]
    split
    · simp [World.seen, Effect.ofFlash]
    · rfl
    · split <;> simp [World.seen, Effect.ofFlash]
    · rfl
  | hostReqUpdate => exact (hostOnly_reqUpdateRun env w).ofFlash
  | hostUpdate =>
    by_cases ht : w.core.currentEvent.type = .updateEnd
    · refine hostUpdateRun_updateEnd_seen (fun e he => ?_) (fun _ _ _ _ => rfl) env w ht
      cases e <;> simp_all [Effect.ofFlash, Effect.ofHost]
    · exact (hostOnly_hostUpdateRun env w ht).ofFlash

theorem entry_ofFlash (env : Env) (w : World) :
    (w.onEntry env).seen Effect.ofFlash = w.seen Effect.ofFlash := by
  unfold World.onEntry
  cases w.core.currentState with
  | init | idle => rfl
  | error => exact errorEntry_seen (fun _ _ _ _ => rfl) w
  | clientReceiving =>
    simp [dfuStates, LibSmState.call, sClientReceivingEntry, World.seen, Effect.ofFlash]
  | clientValidating =>
    simp only [dfuStates, LibSmState.call, sClientValidatingEntry]
    split
    · simp [World.seen, Effect.ofFlash]
    · split <;> simp [World.seen, Effect.ofFlash]
  | clientRebootReq =>
    simp [dfuStates, LibSmState.call, sClientRebootReqEntry, World.seen, Effect.ofFlash]
  | clientRebootDone =>
    simp only [dfuStates, LibSmState.call, sClientUpdateDoneEntry, bmDfuClientConfirmEnable,
      bmDfuClientFailUpdateAndReboot]
    split
    · split <;> simp [World.seen, Effect.ofFlash]
    · simp [World.seen, Effect.ofFlash]
  | clientActivating => rfl
  | hostReqUpdate => exact (hostOnly_reqUpdateEntry env w).ofFlash
  | hostUpdate => exact (hostOnly_hostUpdateEntry env w).ofFlash

/-- Moving to another state makes no call to the flash area. -/
theorem moved_ofFlash (env : Env) (u : World) :
    (u.moved env).seen Effect.ofFlash = u.seen Effect.ofFlash := by
  by_cases h : u.core.currentState = .hostUpdate
  · rw [moved_eq_of_hostUpdate env h]
    exact (entry_ofFlash env ((sHostUpdateExit u).2.entering u.core.newState)).trans
      (hostOnly_hostUpdateExit u).ofFlash
  · rw [moved_eq env h]
    exact entry_ofFlash env (u.entering u.core.newState)

/-- A step makes the flash calls of its run function. -/
theorem consume_ofFlash (env : Env) (evt : BmDfuEvent) {w : World} (hw : Settled w) :
    (consume env evt w).seen Effect.ofFlash = (w.afterRun env evt).seen Effect.ofFlash := by
  obtain ⟨-, ⟨-, hu⟩ | ⟨-, -, hu⟩⟩ := consume_cases env evt hw
  · rw [hu]
  · rw [hu, moved_ofFlash]

/-! ## Queue and log only grow -/

/-- NOP events and effects are added, and nothing is lost. -/
structure Grows (w u : World) : Prop where
  queue : NopsAdded w.queue u.queue
  log : w.log <:+ u.log

theorem Grows.refl (w : World) : Grows w w := ⟨.refl _, List.suffix_rfl⟩

theorem Grows.trans {w u v : World} (h : Grows w u) (g : Grows u v) : Grows w v :=
  ⟨h.queue.trans g.queue, h.log.trans g.log⟩

theorem ClientOnly.grows {w u : World} (h : ClientOnly w u) : Grows w u := ⟨h.queue, h.log⟩

theorem HostOnly.grows {w u : World} (h : HostOnly w u) : Grows w u := ⟨h.queue, h.log⟩

theorem grows_setPending (s : BmDfuState) (w : World) :
    Grows w (bmDfuSetPendingStateChange s w) := (clientOnly_setPending w s).grows

theorem grows_hostUpdateComplete (ok : Bool) (err : BmDfuErr) (w : World) :
    Grows w (hostUpdateComplete ok err w) := by
  unfold hostUpdateComplete
  split
  · exact ⟨.refl _, List.suffix_cons _ _⟩
  · exact .refl w

theorem grows_coreUpdateFinish (w : World) : Grows w (coreUpdateFinish w) := by
  unfold coreUpdateFinish
  split
  · exact ⟨.refl _, List.suffix_cons _ _⟩
  · exact .refl w

theorem run_grows (env : Env) (w : World) :
    Grows w ((dfuStates env w.core.currentState).run w).2 := by
  cases w.core.currentState with
  | init =>
    simp only [dfuStates, sInitRun]
    split
    · split <;> exact grows_setPending _ w
    · exact .refl w
  | idle =>
    simp only [dfuStates, sIdleRun]
    split
    · exact (clientOnly_processUpdateRequest env w).grows
    · refine Grows.trans ?_ (grows_setPending _ _)
      exact ⟨.of_eq (by simp [bmDfuHostSetParams]), by simp [bmDfuHostSetParams]⟩
    · exact .refl w
  | error | clientValidating | clientActivating => exact .refl w
  | clientReceiving => exact (clientOnly_receivingRun env w).grows
  | clientRebootReq => exact (clientOnly_rebootReqRun env w).grows
  | clientRebootDone => exact (clientOnly_updateDoneRun env w).grows
  | hostReqUpdate => exact (hostOnly_reqUpdateRun env w).grows
  | hostUpdate =>
    by_cases ht : w.core.currentEvent.type = .updateEnd
    · have hstop : Grows w (bmTimerStop env .update w).2 := (hostOnly_emit w rfl).grows
      simp only [dfuStates, sHostUpdateRun, bmDfuGetCurrentEvent, ht]
      split
      · exact hstop.trans (hostOnly_error env _ _).grows
      · split
        · refine Grows.trans ?_ (grows_setPending _ _)
          exact hstop.trans (grows_hostUpdateComplete _ _ _)
        · exact hstop
    · exact (hostOnly_hostUpdateRun env w ht).grows

theorem entry_grows (env : Env) (w : World) : Grows w (w.onEntry env) := by
  unfold World.onEntry
  cases w.core.currentState with
  | init => exact .refl w
  | idle => exact ⟨.refl _, List.suffix_rfl⟩
  | clientActivating => exact ⟨.refl _, List.suffix_cons _ _⟩
  | error =>
    simp only [dfuStates, LibSmState.call, sErrorEntry]
    split
    · exact (grows_coreUpdateFinish w).trans (grows_setPending _ _)
    · exact grows_coreUpdateFinish w
  | clientReceiving => exact (clientOnly_receivingEntry env w).grows
  | clientValidating => exact (clientOnly_validatingEntry env w).grows
  | clientRebootReq => exact (clientOnly_rebootReqEntry env w).grows
  | clientRebootDone => exact (clientOnly_updateDoneEntry env w).grows
  | hostReqUpdate => exact (hostOnly_reqUpdateEntry env w).grows
  | hostUpdate => exact (hostOnly_hostUpdateEntry env w).grows

theorem moved_grows (env : Env) (u : World) : Grows u (u.moved env) := by
  have henter : ∀ v : World, Grows v (v.entering u.core.newState) :=
    fun v => ⟨.refl _, List.suffix_rfl⟩
  by_cases h : u.core.currentState = .hostUpdate
  · rw [moved_eq_of_hostUpdate env h]
    exact ((hostOnly_hostUpdateExit u).grows.trans (henter _)).trans
      (entry_grows env ((sHostUpdateExit u).2.entering u.core.newState))
  · rw [moved_eq env h]
    exact (henter u).trans (entry_grows env (u.entering u.core.newState))

theorem consume_grows (env : Env) (evt : BmDfuEvent) {w : World} (hw : Settled w) :
    Grows w (consume env evt w) := by
  have hevt : Grows w (w.withEvent evt) := ⟨.refl _, List.suffix_rfl⟩
  have hrun : Grows w (w.afterRun env evt) := hevt.trans (run_grows env (w.withEvent evt))
  obtain ⟨-, ⟨-, hu⟩ | ⟨-, -, hu⟩⟩ := consume_cases env evt hw
  · rw [hu]
    exact hrun
  · rw [hu]
    exact hrun.trans (moved_grows env _)

end BmCore.Dfu
