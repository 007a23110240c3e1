import BmCore.Dfu.Failures

/-!
# Resources of an update

Back in Idle, the stream buffer of the host is deleted and the flash area of the client is closed
as often as it was opened. The exits that break this are a Start frame for an image that is too
large, a failure in Receiving before the image is complete, and a failure of a host that is still
waiting for the Ack of a streamed update.
-/
namespace BmCore.Dfu
open Library

/-- Nothing is held. -/
structure Balanced (w : World) : Prop where
  dataQueue : w.host.dataQueue = none
  flashArea : w.opens = w.closes

/-- The host gives the update up while it waits for the Ack, and does not end in the fatal error
state. -/
def ackFails (env : Env) (w : World) (evt : BmDfuEvent) : Bool :=
  let call := w.log.length
  match evt.type with
  | .ackReceived => env.timerStop call != .ok ||
    match evt.buf with
    | some buf => resultSuccess env.beyond buf.bytes == 0 &&
      (resultErrCode env.beyond buf.bytes).code < BmDfuErr.flashAccess.code
    | none => false
  | .ackTimeout => (w.host.ackRetryNum + 1) % 2 ^ 8 ≥ bmDfuMaxAckRetries ||
    env.timerStart (call + 1) != .ok
  | .abort => (abortErr env evt).code < BmDfuErr.flashAccess.code
  | _ => false

/-- The Start frame in `buf` is refused because of its size, with the slot already open. -/
def tooLarge (env : Env) (w : World) (buf : BmDfuBuf) : Bool :=
  let info := imgInfo env.beyond buf.bytes
  wantsUpdate env info && info.chunkSize.toNat ≤ bmDfuMaxChunkSize &&
    env.flashAreaOpen (recordDivision info w).log.length == .ok &&
    !(env.flashAreaSize > info.imageSize)

/-- Consuming `evt` abandons something that is held. -/
def abandons (env : Env) (w : World) (evt : BmDfuEvent) : Bool :=
  match w.core.currentState with
  | .idle => evt.type = .receivedUpdateRequest && evt.buf.any (tooLarge env w)
  | .clientReceiving => receivingFails env w evt
  | .hostReqUpdate => w.host.dataQueue.isSome && ackFails env w evt
  | _ => false

/-- The condition on an action. -/
def Releases (env : Env) (w : World) (a : Action) : Prop :=
  a = .turn → ∀ evt ∈ w.queue.head?, abandons env w evt = false

instance (env : Env) (w : World) (a : Action) : Decidable (Releases env w a) :=
  inferInstanceAs (Decidable (_ → ∀ evt ∈ w.queue.head?, _))

/-- What is known between actions. -/
structure ResourceInv (w : World) : Prop where
  settled : Settled w
  receiving : w.core.currentState = .clientReceiving →
    w.opens = w.closes + 1 ∧ w.client.imgPageByteCounter < bmImgPageLength
  closed : w.core.currentState ≠ .clientReceiving → ¬ w.fatal → w.opens = w.closes
  deleted : w.core.currentState ∉ [.hostReqUpdate, .hostUpdate] → ¬ w.fatal →
    w.host.dataQueue = none

/-- The current event, the queue and the like play no part. -/
theorem abandons_congr {env : Env} {w u : World} (evt : BmDfuEvent)
    (hstate : u.core.currentState = w.core.currentState) (hclient : u.client = w.client)
    (hhost : u.host = w.host) (hlog : u.log = w.log) : abandons env u evt = abandons env w evt := by
  have hlarge : tooLarge env u = tooLarge env w := by
    funext buf
    simp only [tooLarge, recordDivision_log, hlog]
  rcases w with ⟨core, client, host, info, queue, flash, log⟩
  rcases u with ⟨core', client', host', info', queue', flash', log'⟩
  dsimp only at hstate hclient hhost hlog
  subst hclient hhost hlog
  unfold abandons
  rw [hstate, hlarge]
  rfl

theorem abandons_withEvent (env : Env) (w : World) (e evt : BmDfuEvent) :
    abandons env (w.withEvent e) evt = abandons env w evt :=
  abandons_congr evt rfl rfl rfl rfl

theorem abandons_withQueue (env : Env) (w : World) (q : List BmDfuEvent) (evt : BmDfuEvent) :
    abandons env (w.withQueue q) evt = abandons env w evt :=
  abandons_congr evt rfl rfl rfl rfl

/-! ## Idle -/

/-- What a Start frame in Idle does to the flash area, if it is not refused for its size. -/
theorem processUpdateRequest_hold {env : Env} {w : World}
    (h : ∀ buf, w.core.currentEvent.buf = some buf → tooLarge env w buf = false)
    (hpend : w.core.pendingStateChange = false) :
    let u := bmDfuClientProcessUpdateRequest env w
    u.closes = w.closes ∧
      ((u.core.pendingStateChange = false ∧ u.opens = w.opens) ∨
        (u.core.pendingStateChange = true ∧ u.core.newState = .error ∧
          (u.opens = w.opens ∨ u.core.error = .flashAccess)) ∨
        (u.core.pendingStateChange = true ∧ u.core.newState = .clientReceiving ∧
          u.opens = w.opens + 1)) := by
  have hdiv : ∀ (info : BmDfuImgInfo) (c : DfuClientCtx),
      SameHold w (recordDivision info (w.withClient c)) := by
    intro info c
    unfold recordDivision
    split
    · exact ⟨by simp [Effect.isOpened], by simp [Effect.isClosed]⟩
    · exact ⟨rfl, rfl⟩
  unfold bmDfuClientProcessUpdateRequest clientTakeStart clientPrepareSlot
  dsimp only [bmDfuGetCurrentEvent]
  split
  · exact ⟨rfl, .inl ⟨hpend, rfl⟩⟩
  next buf hbuf =>
    split
    next hwant =>
      split
      · have herr := sameHold_clientError env .chunkSize (bmDfuClientAbort env .aborted
          (w.withClient { w.client with hostNodeId := srcNodeId env.beyond buf.bytes }))
        refine ⟨?_, .inr (.inl ⟨by simp, by simp, .inl ?_⟩)⟩
        · rw [herr.closes]
          simp [Effect.isClosed]
        · rw [herr.opens]
          simp [Effect.isOpened]
      next hchunk =>
        split
        · refine ⟨?_, .inr (.inl ⟨by simp, by simp, .inr (by simp)⟩)⟩
          rw [(sameHold_clientError env _ _).closes]
          simp [Effect.isClosed, (hdiv _ _).closes]
        next hopen =>
          split
          · split
            · refine ⟨?_, .inr (.inl ⟨by simp, by simp, .inr (by simp)⟩)⟩
              rw [(sameHold_clientError env _ _).closes]
              simp [Effect.isClosed, (hdiv _ _).closes]
            · refine ⟨?_, .inr (.inr ⟨by simp, by simp, ?_⟩)⟩
              · rw [(sameHold_setPending _ _).closes]
                simp [Effect.isClosed, (hdiv _ _).closes]
              · rw [(sameHold_setPending _ _).opens]
                have hok := not_not.mp hopen
                simp only [flashAreaOpen_fst, withClient_log] at hok
                simp [Effect.isOpened, (hdiv _ _).opens, hok]
          next hsize =>
            -- the slot is open and the image does not fit
            have hlarge := h buf hbuf
            have hok := not_not.mp hopen
            simp only [flashAreaOpen_fst, withClient_log, recordDivision_log_withClient] at hok
            simp [tooLarge, hwant, hok] at hlarge
            exact absurd (hlarge (by omega)) hsize
    · refine ⟨?_, .inl ⟨by simp [hpend], ?_⟩⟩
      · simp [Effect.isClosed]
      · simp [Effect.isOpened]

/-- What a step in Idle does to the flash area: it is opened for a transfer and nothing else. -/
def IdleHold (w u : World) : Prop :=
  u.closes = w.closes ∧
    ((u.core.pendingStateChange = false ∧ u.opens = w.opens) ∨
      (u.core.pendingStateChange = true ∧ u.core.newState = .error ∧
        (u.opens = w.opens ∨ u.core.error = .flashAccess)) ∨
      (u.core.pendingStateChange = true ∧ u.core.newState = .clientReceiving ∧
        u.opens = w.opens + 1) ∨
      (u.core.pendingStateChange = true ∧ u.core.newState = .hostReqUpdate ∧
        u.opens = w.opens))

theorem idleRun_hold {env : Env} {w : World} (hs : w.core.currentState = .idle)
    (hrel : abandons env w w.core.currentEvent = false)
    (hpend : w.core.pendingStateChange = false) :
    IdleHold w (sIdleRun env w).2 := by
  unfold sIdleRun
  dsimp only
  split
  next ht =>
    have hlarge : ∀ buf, w.core.currentEvent.buf = some buf → tooLarge env w buf = false := by
      intro buf hbuf
      simpa [abandons, hs, ht, hbuf] using hrel
    obtain ⟨hcl, hst | herr | hrecv⟩ := processUpdateRequest_hold hlarge hpend
    · exact ⟨hcl, .inl hst⟩
    · exact ⟨hcl, .inr (.inl herr)⟩
    · exact ⟨hcl, .inr (.inr (.inl hrecv))⟩
  · have hset := sameHold_setPending .hostReqUpdate
    refine ⟨?_, .inr (.inr (.inr ⟨by simp, by simp, ?_⟩))⟩
    · rw [(hset _).closes]
      simp [World.closes, World.seen, bmDfuHostSetParams]
    · rw [(hset _).opens]
      simp [World.opens, World.seen, bmDfuHostSetParams]
  · exact ⟨rfl, .inl ⟨hpend, rfl⟩⟩

/-! ## The stream buffer -/

theorem idleRun_dataQueue (env : Env) (w : World) :
    (sIdleRun env w).2.host.dataQueue = w.host.dataQueue := by
  unfold sIdleRun bmDfuHostSetParams
  dsimp only
  split
  · rw [(clientOnly_processUpdateRequest env w).host]
  · simp
  · rfl

theorem reqUpdateRun_dataQueue (env : Env) (w : World) :
    (sHostReqUpdateRun env w).2.host.dataQueue = w.host.dataQueue := by
  have hcheck : ∀ call : BmErr × World, (hostTimerErrCheck env call).2.host = call.2.host := by
    intro call
    unfold hostTimerErrCheck
    split <;> simp
  unfold sHostReqUpdateRun
  dsimp only
  split
  · split
    · simp
    · split
      · split <;> simp
      · rfl
  · split
    · simp
    · rw [hcheck]
      rfl
  · simp
  · rfl

/-- Outside HostUpdate the run functions leave the stream buffer alone. -/
theorem run_dataQueue (env : Env) (w : World) (h : w.core.currentState ≠ .hostUpdate) :
    ((dfuStates env w.core.currentState).run w).2.host.dataQueue = w.host.dataQueue := by
  cases hs : w.core.currentState with
  | init =>
    simp only [dfuStates, sInitRun]
    split
    · split <;> simp
    · rfl
  | idle => exact idleRun_dataQueue env w
  | error | clientValidating | clientActivating => rfl
  | clientReceiving => exact congrArg DfuHostCtx.dataQueue (clientOnly_receivingRun env w).host
  | clientRebootReq => exact congrArg DfuHostCtx.dataQueue (clientOnly_rebootReqRun env w).host
  | clientRebootDone => exact congrArg DfuHostCtx.dataQueue (clientOnly_updateDoneRun env w).host
  | hostReqUpdate => exact reqUpdateRun_dataQueue env w
  | hostUpdate => exact absurd hs h

theorem errorEntry_host (w : World) : (sErrorEntry w).2.host = w.host := by
  have hfinish : (coreUpdateFinish w).host = w.host := by
    unfold coreUpdateFinish
    split <;> rfl
  unfold sErrorEntry
  dsimp only
  split
  · rw [setPending_host]
    exact hfinish
  · exact hfinish

theorem entry_host (env : Env) (w : World) (h : w.core.currentState ≠ .hostReqUpdate) :
    (w.onEntry env).host = w.host := by
  unfold World.onEntry
  cases hs : w.core.currentState with
  | init | idle | clientActivating => rfl
  | error => exact errorEntry_host w
  | clientReceiving => exact (clientOnly_receivingEntry env w).host
  | clientValidating => exact (clientOnly_validatingEntry env w).host
  | clientRebootReq => exact (clientOnly_rebootReqEntry env w).host
  | clientRebootDone => exact (clientOnly_updateDoneEntry env w).host
  | hostReqUpdate => exact absurd hs h
  | hostUpdate =>
    show (bmDfuHostStartUpdateTimer env w).2.host = w.host
    unfold bmDfuHostStartUpdateTimer
    dsimp only
    split
    · rfl
    · split <;> rfl

/-- Leaving HostUpdate deletes the stream buffer, and only HostReqUpdate creates one. -/
theorem moved_dataQueue (env : Env) {u : World} (hne : u.core.newState ≠ .hostReqUpdate) :
    (u.moved env).host.dataQueue =
      if u.core.currentState = .hostUpdate then none else u.host.dataQueue := by
  by_cases h : u.core.currentState = .hostUpdate
  · rw [if_pos h, moved_eq_of_hostUpdate env h]
    have hentry := entry_host env ((sHostUpdateExit u).2.entering u.core.newState) hne
    refine (congrArg DfuHostCtx.dataQueue hentry).trans ?_
    show (sHostUpdateExit u).2.host.dataQueue = none
    unfold sHostUpdateExit
    split
    · rfl
    next hq => exact hq
  · rw [if_neg h, moved_eq env h]
    exact congrArg DfuHostCtx.dataQueue (entry_host env (u.entering u.core.newState) hne)

/-- A host that waits for the Ack and fails otherwise than `ackFails` says fails for good. -/
theorem reqUpdateRun_fatal {env : Env} {w : World}
    (h : ackFails env w w.core.currentEvent = false)
    (hpend : w.core.pendingStateChange = false)
    (hp : (sHostReqUpdateRun env w).2.core.pendingStateChange = true)
    (hn : (sHostReqUpdateRun env w).2.core.newState = .error) :
    ¬ (sHostReqUpdateRun env w).2.core.error.code < BmDfuErr.flashAccess.code := by
  rcases he : w.core.currentEvent with ⟨type, buf⟩
  rw [he] at h
  cases type with
  | ackReceived =>
    simp only [ackFails, Bool.or_eq_false_iff, bne_eq_false_iff_eq] at h
    have hstop : (bmTimerStop env .ack w).1 = .ok := h.1
    cases buf with
    | none => simp [sHostReqUpdateRun, bmDfuGetCurrentEvent, he, h.1, hpend] at hp
    | some buf =>
      by_cases hsuc : resultSuccess env.beyond buf.bytes = 0
      · have hcode := h.2
        simp only [hsuc, beq_self_eq_true, Bool.true_and, decide_eq_false_iff_not] at hcode
        simpa [sHostReqUpdateRun, bmDfuGetCurrentEvent, he, h.1, hsuc] using hcode
      · simp [sHostReqUpdateRun, bmDfuGetCurrentEvent, he, h.1, hsuc] at hn
  | ackTimeout =>
    simp only [ackFails, Bool.or_eq_false_iff, bne_eq_false_iff_eq, decide_eq_false_iff_not] at h
    have hretry : ¬ (w.host.ackRetryNum + 1) % 256 ≥ bmDfuMaxAckRetries := h.1
    simp [sHostReqUpdateRun, bmDfuGetCurrentEvent, he, hostTimerErrCheck, h.2, hpend, hretry] at hp
  | abort =>
    simp only [ackFails, decide_eq_false_iff_not] at h
    simpa [sHostReqUpdateRun, bmDfuGetCurrentEvent, he] using h
  | _ => simp [sHostReqUpdateRun, bmDfuGetCurrentEvent, he, hpend] at hp

/-! ## One step -/

variable {env : Env}

/-- The run function in Idle, on an event that abandons nothing. -/
theorem ResourceInv.afterIdle {w : World} (h : ResourceInv w) {evt : BmDfuEvent}
    (hrel : abandons env w evt = false) (hidle : w.core.currentState = .idle) :
    IdleHold w (w.afterRun env evt) := by
  have hafter : w.afterRun env evt = (sIdleRun env (w.withEvent evt)).2 := by
    simp [World.afterRun, hidle, dfuStates]
  have hrel' : abandons env (w.withEvent evt) evt = false := by
    rw [abandons_withEvent]
    exact hrel
  have hpend : (w.withEvent evt).core.pendingStateChange = false :=
    h.settled.pending_eq_false hidle (by decide)
  rw [hafter]
  exact idleRun_hold hidle hrel' hpend

/-- The run function in Receiving, on an event that abandons nothing. -/
theorem ResourceInv.afterReceiving {w : World} (h : ResourceInv w) {evt : BmDfuEvent}
    (hrel : abandons env w evt = false) (hr : w.core.currentState = .clientReceiving) :
    StillReceiving (w.withEvent evt) (w.afterRun env evt) ∨
      ImageComplete (imageEndFails env w evt) (w.withEvent evt) (w.afterRun env evt) := by
  have hafter : w.afterRun env evt = (sClientReceivingRun env (w.withEvent evt)).2 := by
    simp [World.afterRun, hr, dfuStates]
  have hfails : receivingFails env w evt = false := by
    simpa [abandons, hr] using hrel
  rw [hafter]
  exact receivingRun_notFailed (w := w.withEvent evt)
    (h.settled.pending_eq_false hr (by decide)) (h.receiving hr).2 hfails

/-- Elsewhere the run functions leave the flash area alone. -/
theorem afterRun_sameHold (env : Env) {w : World} (evt : BmDfuEvent)
    (h : w.core.currentState ∉ [.idle, .clientReceiving]) : SameHold w (w.afterRun env evt) :=
  .of_ofFlash (run_ofFlash env (w.withEvent evt) h)

theorem afterRun_dataQueue {w : World} (evt : BmDfuEvent) (h : w.core.currentState ≠ .hostUpdate) :
    (w.afterRun env evt).host.dataQueue = w.host.dataQueue :=
  run_dataQueue env (w.withEvent evt) h

/-- A step without a transition keeps what is known. -/
theorem ResourceInv.step_stay {w : World} (h : ResourceInv w) {evt : BmDfuEvent}
    (hrel : abandons env w evt = false)
    (hp : (w.afterRun env evt).core.pendingStateChange = false)
    (hs : (w.afterRun env evt).core.currentState = w.core.currentState) :
    ResourceInv (w.afterRun env evt) := by
  have hfatal : ¬ (w.afterRun env evt).fatal → ¬ w.fatal := by
    rintro hno ⟨hst, -⟩
    exact hno ⟨hs.trans hst, hp⟩
  refine ⟨(fun hpend => by rw [hp] at hpend; cases hpend), ?_, ?_, ?_⟩
  · intro hr
    rw [hs] at hr
    rcases h.afterReceiving hrel hr with hk | hk
    · have hopens : (w.afterRun env evt).opens = w.opens := hk.hold.opens
      have hcloses : (w.afterRun env evt).closes = w.closes := hk.hold.closes
      exact ⟨by rw [hopens, hcloses]; exact (h.receiving hr).1, hk.counter⟩
    · have hpend := hk.pending
      rw [hp] at hpend
      cases hpend
  · intro hne hno
    rw [hs] at hne
    have hbal := h.closed hne (hfatal hno)
    by_cases hidle : w.core.currentState = .idle
    · obtain ⟨hcl, ⟨-, ho⟩ | ⟨hpend, -⟩ | ⟨hpend, -⟩ | ⟨hpend, -⟩⟩ := h.afterIdle hrel hidle
      · rw [hcl, ho]
        exact hbal
      all_goals
        rw [hp] at hpend
        cases hpend
    · have hhold := afterRun_sameHold env evt (w := w) (by simp [hidle, hne])
      rw [hhold.opens, hhold.closes]
      exact hbal
  · intro hnot hno
    rw [hs] at hnot
    rw [afterRun_dataQueue evt (fun hh => hnot (by simp [hh]))]
    exact h.deleted hnot (hfatal hno)

/-- A transition closes what was open, or enters Receiving with the area open. -/
theorem ResourceInv.moved_closed {w : World} (h : ResourceInv w) {evt : BmDfuEvent}
    (hrel : abandons env w evt = false)
    (hp : (w.afterRun env evt).core.pendingStateChange = true) (hwf : ¬ w.fatal)
    (hne : (w.afterRun env evt).core.newState ≠ .clientReceiving)
    (hno : ¬ ((w.afterRun env evt).moved env).fatal) :
    (w.afterRun env evt).opens = (w.afterRun env evt).closes := by
  by_cases hidle : w.core.currentState = .idle
  · have hbal := h.closed (by rw [hidle]; decide) hwf
    obtain ⟨hcl, ⟨hpend, -⟩ | ⟨-, hn, ho | he⟩ | ⟨-, hn, -⟩ | ⟨-, -, ho⟩⟩ := h.afterIdle hrel hidle
    · rw [hp] at hpend
      cases hpend
    · rw [ho, hcl]
      exact hbal
    · exact absurd (moved_fatal env hn (by rw [he]; decide)) hno
    · exact absurd hn hne
    · rw [ho, hcl]
      exact hbal
  · by_cases hr : w.core.currentState = .clientReceiving
    · rcases h.afterReceiving hrel hr with hk | hk
      · have hpend := hk.pending
        rw [hp] at hpend
        cases hpend
      · have hopens : (w.afterRun env evt).opens = w.opens := hk.closed.opens
        have hcloses : (w.afterRun env evt).closes = w.closes + 1 := hk.closed.closes
        rw [hopens, hcloses]
        exact (h.receiving hr).1
    · have hhold := afterRun_sameHold env evt (w := w) (by simp [hidle, hr])
      rw [hhold.opens, hhold.closes]
      exact h.closed hr hwf

/-- A transition out of the host states leaves no stream buffer. -/
theorem ResourceInv.moved_deleted {w : World} (h : ResourceInv w) {evt : BmDfuEvent}
    (hrel : abandons env w evt = false)
    (hs : (w.afterRun env evt).core.currentState = w.core.currentState)
    (hp : (w.afterRun env evt).core.pendingStateChange = true) (hwf : ¬ w.fatal)
    (hn : (w.afterRun env evt).core.newState ∈ nextStates w.core.currentState)
    (hnot : (w.afterRun env evt).core.newState ∉ [.hostReqUpdate, .hostUpdate])
    (hno : ¬ ((w.afterRun env evt).moved env).fatal) :
    ((w.afterRun env evt).moved env).host.dataQueue = none := by
  rw [moved_dataQueue env (fun hh => hnot (by simp [hh])), hs]
  split
  · rfl
  next hne =>
    rw [afterRun_dataQueue evt hne]
    by_cases hreq : w.core.currentState = .hostReqUpdate
    · have hafter : w.afterRun env evt = (sHostReqUpdateRun env (w.withEvent evt)).2 := by
        simp [World.afterRun, hreq, dfuStates]
      have herr : (w.afterRun env evt).core.newState = .error := by
        rw [hreq] at hn
        simp only [nextStates, List.mem_cons, List.not_mem_nil, or_false] at hn hnot
        tauto
      simp only [abandons, hreq, Bool.and_eq_false_iff] at hrel
      rcases hrel with hnone | hack
      · simpa using hnone
      · have hfail := reqUpdateRun_fatal (w := w.withEvent evt) hack
          (h.settled.pending_eq_false hreq (by decide)) (by rw [← hafter]; exact hp)
          (by rw [← hafter]; exact herr)
        rw [← hafter] at hfail
        exact absurd (moved_fatal env herr hfail) hno
    · exact h.deleted (by simp [hreq, hne]) hwf

/-- A step with a transition keeps what is known. -/
theorem ResourceInv.step_move {w : World} (h : ResourceInv w) {evt : BmDfuEvent}
    (hrel : abandons env w evt = false)
    (hs : (w.afterRun env evt).core.currentState = w.core.currentState)
    (hp : (w.afterRun env evt).core.pendingStateChange = true)
    (hn : (w.afterRun env evt).core.newState ∈ nextStates w.core.currentState) :
    ResourceInv ((w.afterRun env evt).moved env) := by
  have hst := moved_currentState env (w.afterRun env evt)
  have hhold : SameHold (w.afterRun env evt) ((w.afterRun env evt).moved env) :=
    .of_ofFlash (moved_ofFlash env _)
  -- the fatal error state asks for nothing
  have hwf : ¬ w.fatal := by
    rintro ⟨herr, hpend⟩
    have hafter : w.afterRun env evt = w.withEvent evt := by
      simp [World.afterRun, herr, dfuStates, sErrorRun]
    rw [hafter] at hp
    exact absurd (hp.symm.trans hpend) (by decide)
  refine ⟨moved_settled env _, fun hr => ?_, fun hne hno => ?_, fun hnot hno => ?_⟩
  · rw [hst] at hr
    have hidle : w.core.currentState = .idle := by
      rw [hr] at hn
      exact eq_idle_of_receiving hn
    have hbal := h.closed (by rw [hidle]; decide) hwf
    refine ⟨?_, ?_⟩
    · rw [hhold.opens, hhold.closes]
      obtain ⟨hcl, ⟨hpend, -⟩ | ⟨-, hn', -⟩ | ⟨-, -, ho⟩ | ⟨-, hn', -⟩⟩ := h.afterIdle hrel hidle
      · rw [hp] at hpend
        cases hpend
      · rw [hr] at hn'
        cases hn'
      · rw [ho, hcl, hbal]
      · rw [hr] at hn'
        cases hn'
    · rw [moved_eq_entry env (hs.trans hidle) (by decide) hr]
      show 0 < bmImgPageLength
      decide
  · rw [hst] at hne
    rw [hhold.opens, hhold.closes]
    exact h.moved_closed hrel hp hwf hne hno
  · rw [hst] at hnot
    exact h.moved_deleted hrel hs hp hwf hn hnot hno

theorem ResourceInv.consume {w : World} (h : ResourceInv w) {evt : BmDfuEvent}
    (hrel : abandons env w evt = false) : ResourceInv (consume env evt w) := by
  obtain ⟨hs, ⟨hp, hu⟩ | ⟨hp, hn, hu⟩⟩ := consume_cases env evt h.settled
  · rw [hu]
    exact h.step_stay hrel hp hs
  · rw [hu]
    exact h.step_move hrel hs hp hn

/-! ## Runs -/

/-- What else happens outside the machine plays no part. -/
theorem ResourceInv.congr {w u : World} (h : ResourceInv w)
    (hstate : u.core.currentState = w.core.currentState)
    (hpend : u.core.pendingStateChange = w.core.pendingStateChange)
    (hnew : u.core.newState = w.core.newState) (hclient : u.client = w.client)
    (hqueue : u.host.dataQueue = none ↔ w.host.dataQueue = none) (hhold : SameHold w u) :
    ResourceInv u := by
  have hfatal : u.fatal ↔ w.fatal := by
    unfold World.fatal
    rw [hstate, hpend]
  refine ⟨?_, ?_, ?_, ?_⟩
  · unfold Settled
    rw [hpend, hstate, hnew]
    exact h.settled
  · rw [hstate, hclient, hhold.opens, hhold.closes]
    exact h.receiving
  · rw [hstate, hfatal, hhold.opens, hhold.closes]
    exact h.closed
  · rw [hstate, hfatal, hqueue]
    exact h.deleted

theorem ResourceInv.act {w : World} (h : ResourceInv w) {a : Action} (hrel : Releases env w a) :
    ResourceInv (act env w a) := by
  by_cases ha : a = .turn
  · subst ha
    cases hq : w.queue with
    | nil =>
      rw [act_turn_nil env hq]
      exact h
    | cons evt rest =>
      rw [act_turn_cons env hq]
      have hrest : ResourceInv (w.withQueue rest) :=
        h.congr rfl rfl rfl rfl .rfl (.of_ofFlash rfl)
      have hevt : abandons env w evt = false := hrel rfl evt (by simp [hq])
      have hevt' : abandons env (w.withQueue rest) evt = false := by
        rw [abandons_withQueue]
        exact hevt
      refine (hrest.consume hevt').congr (by simp) (by simp) (by simp) (by simp) (by simp) ?_
      exact .of_ofFlash (released_seen evt _ fun _ => rfl)
  · have hout := act_outside env w ha
    exact h.congr hout.currentState hout.pendingStateChange hout.newState hout.client
      hout.dataQueue (.of_ofFlash hout.ofFlash)

/-- In every run in which no event abandons something that is held, nothing is held in Idle. -/
theorem resources_balanced (env : Env) (self : UInt64) (info : RebootClientUpdateInfo)
    (flash : Nat → UInt8) (as : List Action)
    (hrel : Along (act env) (Releases env) (bmDfuInit self info flash) as)
    (hidle : (as.foldl (act env) (bmDfuInit self info flash)).core.currentState = .idle) :
    Balanced (as.foldl (act env) (bmDfuInit self info flash)) := by
  have hinit : ResourceInv (bmDfuInit self info flash) :=
    ⟨(fun h => by cases h), (fun h => by cases h), (fun _ _ => rfl), (fun _ _ => rfl)⟩
  have h := foldl_invariant (fun w a h hc => h.act hc) hinit hrel
  have hno : ¬ (as.foldl (act env) (bmDfuInit self info flash)).fatal := by
    rintro ⟨herr, -⟩
    rw [hidle] at herr
    cases herr
  exact ⟨h.deleted (by simp [hidle]) hno, h.closed (by simp [hidle]) hno⟩

/-- Node 9 sends an image of `size` bytes and one chunk of it; node 7 has 4096 bytes of flash. -/
def offeredImage (size : UInt32) : List Action :=
  [.turn, .turn, .frame (startFrame 9 7 ⟨size, 1, 0, 0, 0, 0, 2⟩), .turn, .turn,
    .frame (payloadFrame 9 7 1 [0xAB]), .turn, .turn, .turn, .turn]

/-- The checksum of the one byte is wrong, and the client is back in Idle. -/
theorem resources_balanced_offeredImage :
    let w := (offeredImage 1).foldl (act (Env.steady 1 4096 [])) (bmDfuInit 7 .zero fun _ => 0)
    w.core.currentState = .idle ∧ w.opens = 1 ∧ Balanced w :=
  ⟨by decide +kernel, by decide +kernel,
    resources_balanced (Env.steady 1 4096 []) 7 .zero (fun _ => 0) (offeredImage 1)
      (by decide +kernel) (by decide +kernel)⟩

/-- An image as large as the flash area is refused in Idle with the area left open. -/
theorem offeredImage_not_balanced :
    let w := (offeredImage 4096).foldl (act (Env.steady 1 4096 []))
      (bmDfuInit 7 .zero fun _ => 0)
    w.core.currentState = .idle ∧ w.opens = 1 ∧ w.closes = 0 ∧ ¬ Balanced w := by
  refine ⟨by decide +kernel, by decide +kernel, by decide +kernel, fun h => ?_⟩
  exact absurd h.flashArea (by decide +kernel)

end BmCore.Dfu
