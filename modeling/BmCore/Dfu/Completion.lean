import BmCore.Dfu.Failures

/-!
# The completion callback

A local update request that is accepted waits in the event queue, becomes the session of the host
and ends. Its callback is to be called once, when the session ends. The core context keeps the
callback after that, so a later error of the client role calls it again; and a request that leaves
the queue outside Idle is lost.
-/
namespace BmCore.Dfu
open Library

/-- The states of a host session. -/
def hostStates : List BmDfuState := [.hostReqUpdate, .hostUpdate]

def Effect.isCallOf (cb : UpdateFinishCb) : Effect → Bool
  | .finishCallback c _ _ _ => c == cb
  | _ => false

/-- How often `cb` has been called. -/
def World.calls (cb : UpdateFinishCb) (w : World) : Nat := (w.seen (Effect.isCallOf cb)).length

/-- The event carries a callback. -/
def carries (evt : BmDfuEvent) : Bool := evt.buf.any fun buf => buf.finishCb.isSome

/-- The event carries the request of `cb`. -/
def mentions (cb : UpdateFinishCb) (evt : BmDfuEvent) : Bool :=
  evt.buf.any fun buf => buf.finishCb == some cb

/-- How a request stands. -/
inductive Stage where
  | waiting | active | finished
  deriving DecidableEq, Repr

/-- The observer of the request of `cb`: its session begins when the request is consumed in Idle and
ends when the machine leaves the host states. -/
def Stage.next (env : Env) (cb : UpdateFinishCb) (w : World) (a : Action) : Stage → Stage
  | .waiting =>
    if a = .turn ∧ w.core.currentState = .idle ∧ (w.queue.head?.any (mentions cb)) then .active
    else .waiting
  | .active => if (act env w a).core.currentState ∈ hostStates then .active else .finished
  | .finished => .finished

/-- A run with the observer. -/
def observe (env : Env) (cb : UpdateFinishCb) (s : World × Stage) (a : Action) : World × Stage :=
  (act env s.1 a, s.2.next env cb s.1 a)

/-! ## The condition -/

/-- The Start frame in `buf` ends in the error state. -/
def startFails (env : Env) (w : World) (buf : BmDfuBuf) : Bool :=
  let info := imgInfo env.beyond buf.bytes
  let call := (recordDivision info w).log.length
  wantsUpdate env info && (info.chunkSize.toNat > bmDfuMaxChunkSize ||
    env.flashAreaOpen call != .ok ||
    (env.flashAreaSize > info.imageSize && env.flashAreaErase (call + 1) != .ok))

/-- Consuming `evt` makes the client role give an update up. -/
def clientGivesUp (env : Env) (w : World) (evt : BmDfuEvent) : Bool :=
  match w.core.currentState with
  | .idle => evt.type = .receivedUpdateRequest && evt.buf.any (startFails env w)
  | .clientReceiving => receivingFails env w evt || imageEndFails env w evt
  | .clientValidating => w.core.pendingStateChange && w.core.newState = .error
  | .clientRebootReq => evt.type = .chunkTimeout &&
    (w.client.chunkRetryNum + 1) % 2 ^ 8 ≥ bmDfuMaxChunkRetries
  | _ => false

/-- The machine does not move any more. -/
def World.stuck (w : World) : Prop := w.core.currentState = .clientActivating ∨ w.fatal

instance (w : World) : Decidable w.stuck := inferInstanceAs (Decidable (_ ∨ _))

/-- The condition on an action: a request with a callback is consumed in Idle, and the client role
gives nothing up while the core context holds a callback. -/
def Finishes (env : Env) (w : World) (a : Action) : Prop :=
  a = .turn → ∀ evt ∈ w.queue.head?,
    (carries evt = true → w.core.currentState = .idle ∨ w.stuck) ∧
      (w.core.updateFinishCallback.isSome → clientGivesUp env w evt = false)

instance (env : Env) (w : World) (a : Action) : Decidable (Finishes env w a) :=
  inferInstanceAs (Decidable (_ → ∀ evt ∈ w.queue.head?, (_ → _) ∧ (_ → _)))

/-! ## Calls of the callback -/

/-- Both contexts keep their callback. -/
structure SameCallbacks (w u : World) : Prop where
  finish : u.core.updateFinishCallback = w.core.updateFinishCallback
  complete : u.host.updateCompleteCallback = w.host.updateCompleteCallback

theorem SameCallbacks.trans {w u v : World} (h : SameCallbacks w u) (g : SameCallbacks u v) :
    SameCallbacks w v :=
  ⟨g.finish.trans h.finish, g.complete.trans h.complete⟩

theorem ClientOnly.sameCallbacks {w u : World} (h : ClientOnly w u) : SameCallbacks w u :=
  ⟨h.updateFinishCallback, congrArg DfuHostCtx.updateCompleteCallback h.host⟩

theorem HostOnly.sameCallbacks {w u : World} (h : HostOnly w u) : SameCallbacks w u :=
  ⟨h.updateFinishCallback, h.updateCompleteCallback⟩

section Calls
variable (cb : UpdateFinishCb)

theorem Effect.isCallOf_foreign (e : Effect) (h : e.isCallOf cb = true) :
    e.ofClient = false ∧ e.ofHost = false := by
  cases e <;> simp_all [Effect.isCallOf, Effect.ofClient, Effect.ofHost]

theorem ClientOnly.calls {w u : World} (h : ClientOnly w u) : u.calls cb = w.calls cb :=
  congrArg List.length (h.seen_of fun e he => (e.isCallOf_foreign cb he).1)

theorem HostOnly.calls {w u : World} (h : HostOnly w u) : u.calls cb = w.calls cb :=
  congrArg List.length (h.seen_of fun e he => (e.isCallOf_foreign cb he).2)

theorem calls_setPending (s : BmDfuState) (w : World) :
    (bmDfuSetPendingStateChange s w).calls cb = w.calls cb :=
  (clientOnly_setPending w s).calls cb

/-- Calling the callback `c`, if there is one. -/
theorem calls_callback (c : Option UpdateFinishCb) (ok : Bool) (err : BmDfuErr) (node : UInt64)
    (w : World) :
    World.calls cb (match c with
      | some c => w.emit (.finishCallback c ok err node)
      | none => w) = w.calls cb + if c = some cb then 1 else 0 := by
  cases c with
  | none => rfl
  | some c =>
    by_cases h : c = cb <;> simp [World.calls, World.seen, Effect.isCallOf, h]

theorem calls_hostUpdateComplete (ok : Bool) (err : BmDfuErr) (w : World) :
    (hostUpdateComplete ok err w).calls cb =
      w.calls cb + if w.host.updateCompleteCallback = some cb then 1 else 0 :=
  calls_callback cb w.host.updateCompleteCallback ok err w.host.clientNodeId w

theorem calls_errorEntry (w : World) : (sErrorEntry w).2.calls cb =
    w.calls cb + if w.core.updateFinishCallback = some cb then 1 else 0 := by
  have hfinish : (coreUpdateFinish w).calls cb =
      w.calls cb + if w.core.updateFinishCallback = some cb then 1 else 0 :=
    calls_callback cb w.core.updateFinishCallback false w.core.error w.core.clientNodeId w
  unfold sErrorEntry
  dsimp only
  split
  · rw [calls_setPending]
    exact hfinish
  · exact hfinish

theorem errorEntry_callbacks (w : World) : SameCallbacks w (sErrorEntry w).2 := by
  have hfinish : SameCallbacks w (coreUpdateFinish w) := by
    unfold coreUpdateFinish
    split <;> exact ⟨rfl, rfl⟩
  unfold sErrorEntry
  dsimp only
  split
  · exact hfinish.trans (clientOnly_setPending _ _).sameCallbacks
  · exact hfinish

/-- Only the entry of the error state calls a callback. -/
theorem entry_calls_of_ne (env : Env) (w : World) (hne : w.core.currentState ≠ .error) :
    SameCallbacks w (w.onEntry env) ∧ (w.onEntry env).calls cb = w.calls cb := by
  have hc : ∀ {u : World}, ClientOnly w u → SameCallbacks w u ∧ u.calls cb = w.calls cb :=
    fun h => ⟨h.sameCallbacks, h.calls cb⟩
  have hh : ∀ {u : World}, HostOnly w u → SameCallbacks w u ∧ u.calls cb = w.calls cb :=
    fun h => ⟨h.sameCallbacks, h.calls cb⟩
  unfold World.onEntry
  cases hs : w.core.currentState with
  | error => exact absurd hs hne
  | init | idle | clientActivating => exact ⟨⟨rfl, rfl⟩, rfl⟩
  | clientReceiving => exact hc (clientOnly_receivingEntry env w)
  | clientValidating => exact hc (clientOnly_validatingEntry env w)
  | clientRebootReq => exact hc (clientOnly_rebootReqEntry env w)
  | clientRebootDone => exact hc (clientOnly_updateDoneEntry env w)
  | hostReqUpdate => exact hh (hostOnly_reqUpdateEntry env w)
  | hostUpdate => exact hh (hostOnly_hostUpdateEntry env w)

theorem entry_calls (env : Env) (w : World) :
    SameCallbacks w (w.onEntry env) ∧ (w.onEntry env).calls cb = w.calls cb +
      if w.core.currentState = .error ∧ w.core.updateFinishCallback = some cb then 1 else 0 := by
  by_cases h : w.core.currentState = .error
  · have hentry : w.onEntry env = (sErrorEntry w).2 := by
      simp [World.onEntry, h, dfuStates, LibSmState.call]
    rw [hentry]
    refine ⟨errorEntry_callbacks w, ?_⟩
    simpa [h] using calls_errorEntry cb w
  · simpa [h] using entry_calls_of_ne cb env w h

/-- A transition calls a callback if it leads to the error state. -/
theorem moved_calls (env : Env) (u : World) :
    SameCallbacks u (u.moved env) ∧ (u.moved env).calls cb = u.calls cb +
      if u.core.newState = .error ∧ u.core.updateFinishCallback = some cb then 1 else 0 := by
  by_cases h : u.core.currentState = .hostUpdate
  · rw [moved_eq_of_hostUpdate env h]
    have hexit := hostOnly_hostUpdateExit u
    obtain ⟨hsame, hcalls⟩ := entry_calls cb env ((sHostUpdateExit u).2.entering u.core.newState)
    refine ⟨hexit.sameCallbacks.trans ⟨hsame.finish, hsame.complete⟩, ?_⟩
    refine hcalls.trans ?_
    show (sHostUpdateExit u).2.calls cb + (if u.core.newState = .error ∧
      (sHostUpdateExit u).2.core.updateFinishCallback = some cb then 1 else 0) = _
    rw [hexit.calls, hexit.updateFinishCallback]
  · rw [moved_eq env h]
    obtain ⟨hsame, hcalls⟩ := entry_calls cb env (u.entering u.core.newState)
    exact ⟨⟨hsame.finish, hsame.complete⟩, hcalls⟩

/-- Only the end of an update calls a callback in a run function, and only a local request in
Idle replaces one. -/
theorem run_calls (env : Env) (w : World)
    (hbegin : w.core.currentState = .idle →
      ∀ buf, w.core.currentEvent ≠ { type := .beginHost, buf := some buf })
    (hend : w.core.currentState = .hostUpdate → w.core.currentEvent.type ≠ .updateEnd) :
    SameCallbacks w ((dfuStates env w.core.currentState).run w).2 ∧
      ((dfuStates env w.core.currentState).run w).2.calls cb = w.calls cb := by
  have hc : ∀ {u : World}, ClientOnly w u → SameCallbacks w u ∧ u.calls cb = w.calls cb :=
    fun h => ⟨h.sameCallbacks, h.calls cb⟩
  have hh : ∀ {u : World}, HostOnly w u → SameCallbacks w u ∧ u.calls cb = w.calls cb :=
    fun h => ⟨h.sameCallbacks, h.calls cb⟩
  cases hs : w.core.currentState with
  | init =>
    simp only [dfuStates, sInitRun]
    split
    · split <;> exact hc (clientOnly_setPending w _)
    · exact hc (.refl w)
  | idle =>
    simp only [dfuStates, sIdleRun]
    split
    · exact hc (clientOnly_processUpdateRequest env w)
    next buf ht hbuf =>
      refine absurd ?_ (hbegin hs buf)
      rw [← ht, ← hbuf]
    · exact hc (.refl w)
  | error | clientValidating | clientActivating => exact hc (.refl w)
  | clientReceiving => exact hc (clientOnly_receivingRun env w)
  | clientRebootReq => exact hc (clientOnly_rebootReqRun env w)
  | clientRebootDone => exact hc (clientOnly_updateDoneRun env w)
  | hostReqUpdate => exact hh (hostOnly_reqUpdateRun env w)
  | hostUpdate => exact hh (hostOnly_hostUpdateRun env w (hend hs))

/-- The end of an update: without a frame nothing happens, a timer that does not stop is an error,
and otherwise the callback is called and the machine goes to Idle. -/
theorem hostUpdateRun_updateEnd (env : Env) {w : World}
    (h : w.core.currentEvent.type = .updateEnd) :
    let u := (sHostUpdateRun env w).2
    SameCallbacks w u ∧
      ((u.core.pendingStateChange = w.core.pendingStateChange ∧ u.calls cb = w.calls cb) ∨
        (u.core.pendingStateChange = true ∧ u.core.newState = .error ∧
          u.calls cb = w.calls cb) ∨
        (u.core.pendingStateChange = true ∧ u.core.newState = .idle ∧ u.calls cb =
          w.calls cb + if w.host.updateCompleteCallback = some cb then 1 else 0)) := by
  have hstop : HostOnly w (bmTimerStop env .update w).2 := hostOnly_emit w rfl
  unfold sHostUpdateRun
  simp only [bmDfuGetCurrentEvent, h]
  split
  · have herr := hstop.trans (hostOnly_error env _ .aborted)
    exact ⟨herr.sameCallbacks, .inr (.inl ⟨by simp, by simp, herr.calls cb⟩)⟩
  · split
    · refine ⟨⟨?_, ?_⟩, .inr (.inr ⟨by simp, by simp, ?_⟩)⟩
      · simp [hostUpdateComplete_core]
      · simp only [setPending_host]
        unfold hostUpdateComplete
        split <;> rfl
      · rw [calls_setPending, calls_hostUpdateComplete, hstop.calls]
        rfl
    · exact ⟨hstop.sameCallbacks, .inl ⟨rfl, hstop.calls cb⟩⟩

end Calls

/-! ## The ways to the error state -/

theorem processUpdateRequest_toError {env : Env} {w : World} {buf : BmDfuBuf}
    (hbuf : w.core.currentEvent.buf = some buf) (hpend : w.core.pendingStateChange = false)
    (hp : (bmDfuClientProcessUpdateRequest env w).core.pendingStateChange = true)
    (hn : (bmDfuClientProcessUpdateRequest env w).core.newState = .error) :
    startFails env w buf = true := by
  unfold bmDfuClientProcessUpdateRequest clientTakeStart clientPrepareSlot at hp hn
  simp only [bmDfuGetCurrentEvent, hbuf] at hp hn
  unfold startFails
  dsimp only
  cases hwant : wantsUpdate env (imgInfo env.beyond buf.bytes) with
  | false => simp [hwant, hpend] at hp
  | true =>
    rw [Bool.true_and]
    rw [if_pos hwant] at hp hn
    by_contra hno
    simp only [Bool.or_eq_true, decide_eq_true_eq, bne_iff_ne, Bool.and_eq_true, not_or, not_not,
      not_and] at hno
    obtain ⟨⟨hchunk, hopen⟩, herase⟩ := hno
    rw [if_neg hchunk] at hp hn
    simp only [flashAreaOpen_fst, withClient_log, recordDivision_log_withClient, hopen, ne_eq,
      not_true_eq_false, if_false, flashAreaOpen_snd] at hp hn
    by_cases hsize : env.flashAreaSize > (imgInfo env.beyond buf.bytes).imageSize
    · simp [hsize, recordDivision_log_withClient, herase hsize] at hn
    · simp [hsize, hpend] at hp

/-- The only way from Idle to the error state. -/
theorem idleRun_toError {env : Env} {w : World} (hpend : w.core.pendingStateChange = false)
    (hp : (sIdleRun env w).2.core.pendingStateChange = true)
    (hn : (sIdleRun env w).2.core.newState = .error) :
    ∃ buf, w.core.currentEvent = { type := .receivedUpdateRequest, buf := some buf } ∧
      startFails env w buf = true := by
  rcases he : w.core.currentEvent with ⟨type, buf⟩
  cases type with
  | receivedUpdateRequest =>
    have hrun : (sIdleRun env w).2 = bmDfuClientProcessUpdateRequest env w := by
      simp only [sIdleRun, he]
    rw [hrun] at hp hn
    cases buf with
    | none =>
      simp [bmDfuClientProcessUpdateRequest, bmDfuGetCurrentEvent, he, hpend] at hp
    | some buf =>
      exact ⟨buf, rfl, processUpdateRequest_toError (by rw [he]) hpend hp hn⟩
  | beginHost =>
    cases buf with
    | none => simp [sIdleRun, he, hpend] at hp
    | some buf =>
      rw [idleRun_beginHost he] at hn
      simp at hn
  | _ => simp [sIdleRun, he, hpend] at hp

/-- The only way from RebootReq to the error state. -/
theorem rebootReqRun_toError {env : Env} {w : World} (hpend : w.core.pendingStateChange = false)
    (hp : (sClientRebootReqRun env w).2.core.pendingStateChange = true)
    (hn : (sClientRebootReqRun env w).2.core.newState = .error) :
    w.core.currentEvent.type = .chunkTimeout ∧
      (w.client.chunkRetryNum + 1) % 2 ^ 8 ≥ bmDfuMaxChunkRetries := by
  rcases he : w.core.currentEvent with ⟨type, buf⟩
  cases type with
  | chunkTimeout =>
    refine ⟨rfl, ?_⟩
    by_contra hretry
    have hretry' : ¬ (w.client.chunkRetryNum + 1) % 256 ≥ bmDfuMaxChunkRetries := hretry
    simp [sClientRebootReqRun, bmDfuGetCurrentEvent, he, hretry', hpend] at hp
  | reboot =>
    cases buf with
    | none => simp [sClientRebootReqRun, bmDfuGetCurrentEvent, he, hpend] at hp
    | some buf => simp [sClientRebootReqRun, bmDfuGetCurrentEvent, he] at hn
  | _ => simp [sClientRebootReqRun, bmDfuGetCurrentEvent, he, hpend] at hp

/-- The client role reaches the error state only by giving an update up. -/
theorem toError_givesUp {env : Env} {evt : BmDfuEvent} {w : World} (hw : Settled w)
    (hpage : w.core.currentState = .clientReceiving →
      w.client.imgPageByteCounter < bmImgPageLength)
    (hs : w.core.currentState ∉ hostStates)
    (hp : (w.afterRun env evt).core.pendingStateChange = true)
    (hn : (w.afterRun env evt).core.newState = .error) : clientGivesUp env w evt = true := by
  have hnext : BmDfuState.error ∈ nextStates w.core.currentState := by
    obtain ⟨-, ⟨hp', -⟩ | ⟨-, hmem, -⟩⟩ := consume_cases env evt hw
    · rw [hp] at hp'
      cases hp'
    · rw [← hn]
      exact hmem
  cases hst : w.core.currentState with
  | init | error | clientActivating | clientRebootDone => simp [hst, nextStates] at hnext
  | hostReqUpdate | hostUpdate => simp [hst, hostStates] at hs
  | idle =>
    have hafter : w.afterRun env evt = (sIdleRun env (w.withEvent evt)).2 := by
      simp [World.afterRun, hst, dfuStates]
    rw [hafter] at hp hn
    obtain ⟨buf, he, hfails⟩ := idleRun_toError (w := w.withEvent evt)
      (hw.pending_eq_false hst (by decide)) hp hn
    have he' : evt = { type := .receivedUpdateRequest, buf := some buf } := he
    have hsame : startFails env (w.withEvent evt) buf = startFails env w buf := by
      simp only [startFails, recordDivision_log]
      rfl
    rw [hsame] at hfails
    simp [clientGivesUp, hst, he', hfails]
  | clientReceiving =>
    have hafter : w.afterRun env evt = (sClientReceivingRun env (w.withEvent evt)).2 := by
      simp [World.afterRun, hst, dfuStates]
    rw [hafter] at hp hn
    simp only [clientGivesUp, hst, Bool.or_eq_true]
    by_contra hno
    rw [not_or, Bool.not_eq_true, Bool.not_eq_true] at hno
    rcases receivingRun_notFailed (w := w.withEvent evt) (hw.pending_eq_false hst (by decide))
      (hpage hst) hno.1 with hk | hk
    · rw [hk.pending] at hp
      cases hp
    · have hend : imageEndFails env (w.withEvent evt) (w.withEvent evt).core.currentEvent = false :=
        hno.2
      rw [hk.newState, hend] at hn
      cases hn
  | clientValidating =>
    have hafter : w.afterRun env evt = w.withEvent evt := by
      simp [World.afterRun, hst, dfuStates, sClientValidatingRun]
    rw [hafter] at hp hn
    have hp' : w.core.pendingStateChange = true := hp
    have hn' : w.core.newState = .error := hn
    simp [clientGivesUp, hst, hp', hn']
  | clientRebootReq =>
    have hafter : w.afterRun env evt = (sClientRebootReqRun env (w.withEvent evt)).2 := by
      simp [World.afterRun, hst, dfuStates]
    rw [hafter] at hp hn
    have hretry := rebootReqRun_toError (w := w.withEvent evt)
      (hw.pending_eq_false hst (by decide)) hp hn
    have ht : evt.type = .chunkTimeout := hretry.1
    have hmax : (w.client.chunkRetryNum + 1) % 2 ^ 8 ≥ bmDfuMaxChunkRetries := hretry.2
    simp only [clientGivesUp, hst, ht, hmax, decide_true, Bool.and_self]

/-! ## One step -/

section Step
variable (env : Env) (evt : BmDfuEvent) {w : World} (cb : UpdateFinishCb)

theorem consume_currentState (hw : Settled w) : (consume env evt w).core.currentState =
    if (w.afterRun env evt).core.pendingStateChange then (w.afterRun env evt).core.newState
    else w.core.currentState := by
  obtain ⟨hst, ⟨hp, hu⟩ | ⟨hp, -, hu⟩⟩ := consume_cases env evt hw
  · rw [hu, hp, hst]
    rfl
  · rw [hu, hp, moved_currentState]
    rfl

/-- Behind the run function only a transition to the error state calls a callback. -/
theorem consume_calls (hw : Settled w) :
    SameCallbacks (w.afterRun env evt) (consume env evt w) ∧
      (consume env evt w).calls cb = (w.afterRun env evt).calls cb +
        if (w.afterRun env evt).core.pendingStateChange = true ∧
          (w.afterRun env evt).core.newState = .error ∧
          (w.afterRun env evt).core.updateFinishCallback = some cb then 1 else 0 := by
  obtain ⟨-, ⟨hp, hu⟩ | ⟨hp, -, hu⟩⟩ := consume_cases env evt hw
  · rw [hu, hp]
    exact ⟨⟨rfl, rfl⟩, by simp⟩
  · rw [hu, hp]
    simpa using moved_calls cb env (w.afterRun env evt)

/-- The run functions of a host session: the end of the update calls the callback. -/
theorem afterRun_host (hw : Settled w) (hs : w.core.currentState ∈ hostStates)
    (hcb : w.host.updateCompleteCallback = w.core.updateFinishCallback) :
    let u := w.afterRun env evt
    SameCallbacks w u ∧
      ((u.core.pendingStateChange = true ∧ u.core.newState = .idle ∧ u.calls cb =
        w.calls cb + if w.core.updateFinishCallback = some cb then 1 else 0) ∨
      ((u.core.pendingStateChange = true → u.core.newState ∈ [.error, .hostUpdate]) ∧
        u.calls cb = w.calls cb)) := by
  have hpend : w.core.pendingStateChange = false := hw.pending_eq_false rfl (by
    revert hs
    cases w.core.currentState <;> decide)
  by_cases hend : w.core.currentState = .hostUpdate ∧ evt.type = .updateEnd
  · have hafter : w.afterRun env evt = (sHostUpdateRun env (w.withEvent evt)).2 := by
      simp [World.afterRun, hend.1, dfuStates]
    rw [hafter]
    obtain ⟨hsame, ⟨hp, hcalls⟩ | ⟨-, hn, hcalls⟩ | ⟨hp, hn, hcalls⟩⟩ :=
      hostUpdateRun_updateEnd cb env (w := w.withEvent evt) hend.2
    · refine ⟨⟨hsame.finish, hsame.complete⟩, .inr ⟨fun hp' => ?_, hcalls⟩⟩
      exact absurd ((hp'.symm.trans hp).trans hpend) (by decide)
    · exact ⟨⟨hsame.finish, hsame.complete⟩, .inr ⟨fun _ => by rw [hn]; decide, hcalls⟩⟩
    · refine ⟨⟨hsame.finish, hsame.complete⟩, .inl ⟨hp, hn, ?_⟩⟩
      rw [← hcb]
      exact hcalls
  · have hnot : w.core.currentState = .idle → False := by
      intro hi
      simp [hi, hostStates] at hs
    obtain ⟨hsame, hcalls⟩ := run_calls cb env (w.withEvent evt) (fun hi => (hnot hi).elim)
      (fun hu ht => hend ⟨hu, ht⟩)
    refine ⟨⟨hsame.finish, hsame.complete⟩, .inr ⟨fun hp => ?_, hcalls⟩⟩
    have hasks : Asks [.error, .hostUpdate] (w.withEvent evt).core (w.afterRun env evt).core := by
      unfold World.afterRun
      simp only [hostStates, List.mem_cons, List.not_mem_nil, or_false] at hs
      rcases hs with hs | hs
      · rw [hs]
        exact asks_reqUpdateRun env (w.withEvent evt)
      · rw [hs]
        exact asks_hostUpdateRun (by decide) env fun ht => absurd ⟨hs, ht⟩ hend
    rcases hasks.target hp with ⟨hp', -⟩ | hmem
    · exact absurd (hp'.symm.trans hpend) (by decide)
    · exact hmem

/-- A step of a host session stays in it, or leaves it and calls the callback. -/
theorem consume_host (hw : Settled w) (hs : w.core.currentState ∈ hostStates)
    (hcb : w.host.updateCompleteCallback = w.core.updateFinishCallback) :
    SameCallbacks w (consume env evt w) ∧ (consume env evt w).calls cb = w.calls cb +
      if (consume env evt w).core.currentState ∉ hostStates ∧
        w.core.updateFinishCallback = some cb then 1 else 0 := by
  obtain ⟨hrest, hcalls⟩ := consume_calls env evt cb hw
  rw [consume_currentState env evt hw, hcalls]
  obtain ⟨hsame, ⟨hp, hn, hrun⟩ | ⟨hp, hrun⟩⟩ := afterRun_host env evt cb hw hs hcb
  · refine ⟨hsame.trans hrest, ?_⟩
    rw [hrun, hp, hn]
    simp [hostStates]
  · refine ⟨hsame.trans hrest, ?_⟩
    rw [hrun, hsame.finish]
    cases hpend : (w.afterRun env evt).core.pendingStateChange with
    | false => simp [hs]
    | true =>
      have hmem := hp hpend
      simp only [List.mem_cons, List.not_mem_nil, or_false] at hmem
      rcases hmem with hn | hn <;> simp [hn, hostStates]

/-- A step outside a host session, on no local request in Idle, neither calls nor opens one, if the
client role gives nothing up. -/
theorem consume_other (hw : Settled w) (hs : w.core.currentState ∉ hostStates)
    (hpage : w.core.currentState = .clientReceiving →
      w.client.imgPageByteCounter < bmImgPageLength)
    (hbegin : w.core.currentState = .idle →
      ∀ buf, evt ≠ { type := .beginHost, buf := some buf })
    (hgive : w.core.updateFinishCallback.isSome → clientGivesUp env w evt = false) :
    SameCallbacks w (consume env evt w) ∧ (consume env evt w).calls cb = w.calls cb ∧
      (consume env evt w).core.currentState ∉ hostStates := by
  obtain ⟨hrest, hcalls⟩ := consume_calls env evt cb hw
  obtain ⟨hsame, hrun⟩ := run_calls cb env (w.withEvent evt) hbegin (by
    intro hu
    have hu' : w.core.currentState = .hostUpdate := hu
    simp [hu', hostStates] at hs)
  have hsame' : SameCallbacks w (w.afterRun env evt) := ⟨hsame.finish, hsame.complete⟩
  have hrun' : (w.afterRun env evt).calls cb = w.calls cb := hrun
  refine ⟨hsame'.trans hrest, ?_, ?_⟩
  · rw [hcalls, hrun', if_neg]
    · rfl
    · rintro ⟨hp, hn, hcb⟩
      rw [hsame'.finish] at hcb
      have hup := toError_givesUp hw hpage hs hp hn
      rw [hgive (by rw [hcb]; rfl)] at hup
      cases hup
  · rw [consume_currentState env evt hw]
    split
    next hp =>
      intro hmem
      have hnext : (w.afterRun env evt).core.newState ∈ nextStates w.core.currentState := by
        obtain ⟨-, ⟨hp', -⟩ | ⟨-, hn, -⟩⟩ := consume_cases env evt hw
        · rw [hp] at hp'
          cases hp'
        · exact hn
      have hidle : w.core.currentState = .idle ∧
          (w.afterRun env evt).core.newState = .hostReqUpdate := by
        revert hnext hmem hs
        cases w.core.currentState <;> cases (w.afterRun env evt).core.newState <;> decide
      obtain ⟨buf, -, he, -⟩ := afterRun_toHostReqUpdate hw hp hnext hidle.2
      exact hbegin hidle.1 buf he
    · exact hs

/-- A local request in Idle opens a host session with its callback. -/
theorem consume_begin (hw : Settled w) (hs : w.core.currentState = .idle) {buf : BmDfuBuf}
    (he : evt = { type := .beginHost, buf := some buf }) :
    (consume env evt w).core.updateFinishCallback = buf.finishCb ∧
      (consume env evt w).host.updateCompleteCallback = buf.finishCb ∧
      (consume env evt w).calls cb = w.calls cb ∧
      (consume env evt w).core.currentState = .hostReqUpdate := by
  obtain ⟨hrest, hcalls⟩ := consume_calls env evt cb hw
  have hafter : w.afterRun env evt = (sIdleRun env (w.withEvent evt)).2 := by
    simp [World.afterRun, hs, dfuStates]
  rw [idleRun_beginHost he] at hafter
  refine ⟨?_, ?_, ?_, ?_⟩
  · rw [hrest.finish, hafter]
    simp [bmDfuHostSetParams]
  · rw [hrest.complete, hafter]
    simp [bmDfuHostSetParams]
  · rw [hcalls, hafter, calls_setPending]
    simp [bmDfuHostSetParams, World.calls, World.seen, World.withEvent]
  · rw [consume_currentState env evt hw, hafter]
    simp

end Step

/-! ## A turn of the event thread -/

theorem mentions_cases {cb : UpdateFinishCb} {evt : BmDfuEvent} (h : mentions cb evt = true) :
    ∃ buf, evt.buf = some buf ∧ buf.finishCb = some cb := by
  cases hb : evt.buf with
  | none => simp [mentions, hb] at h
  | some buf => exact ⟨buf, rfl, by simpa [mentions, hb] using h⟩

/-- Requests of `cb` in the queue. -/
def World.requests (cb : UpdateFinishCb) (w : World) : Nat := w.queue.countP (mentions cb)

theorem NopsAdded.countP {cb : UpdateFinishCb} {q q' : List BmDfuEvent} (h : NopsAdded q q') :
    q'.countP (mentions cb) = q.countP (mentions cb) := by
  obtain ⟨n, rfl⟩ := h
  have hnone : (List.replicate n ({ type := .none } : BmDfuEvent)).countP (mentions cb) = 0 := by
    rw [List.countP_eq_zero]
    intro e he
    rw [List.eq_of_mem_replicate he]
    simp [mentions]
  rw [List.countP_append, hnone, Nat.add_zero]

/-- What is known of the callbacks between actions. -/
structure CallbackInv (w : World) : Prop where
  settled : Settled w
  page : w.core.currentState = .clientReceiving → w.client.imgPageByteCounter < bmImgPageLength
  callbacks : w.core.currentState ∈ hostStates →
    w.host.updateCompleteCallback = w.core.updateFinishCallback
  carriers : ∀ evt ∈ w.queue, carries evt = true → evt.type = .beginHost

section Turn
variable {env : Env} {evt : BmDfuEvent} {rest : List BmDfuEvent} {w : World}

theorem clientGivesUp_withQueue (w : World) (q : List BmDfuEvent) :
    clientGivesUp env (w.withQueue q) evt = clientGivesUp env w evt := by
  have hstart : startFails env (w.withQueue q) = startFails env w := by
    funext buf
    simp only [startFails, recordDivision_log]
    rfl
  unfold clientGivesUp
  rw [withQueue_core, hstart]
  rfl

/-- The world after the event thread has consumed `evt`. -/
theorem turn_calls (cb : UpdateFinishCb) (u : World) : (u.released evt).calls cb = u.calls cb :=
  congrArg List.length (released_seen evt u fun _ => rfl)

theorem turn_requests (env : Env) (cb : UpdateFinishCb) (hw : Settled w)
    (hq : w.queue = evt :: rest) :
    (act env w .turn).requests cb + (if mentions cb evt then 1 else 0) = w.requests cb := by
  have hgrows := consume_grows env evt (w := w.withQueue rest) hw
  rw [act_turn_cons env hq]
  unfold World.requests
  rw [released_queue, hgrows.queue.countP, hq, List.countP_cons]
  rfl

/-- What a turn on an event without the request of `cb` does. -/
structure Unmentioned (cb : UpdateFinishCb) (w u : World) : Prop where
  finish : u.core.updateFinishCallback = some cb → w.core.updateFinishCallback = some cb ∧
    (u.core.currentState ∈ hostStates → w.core.currentState ∈ hostStates)
  stays : w.core.currentState ∈ hostStates →
    u.core.updateFinishCallback = w.core.updateFinishCallback
  calls : u.calls cb = w.calls cb + if w.core.currentState ∈ hostStates ∧
    u.core.currentState ∉ hostStates ∧ w.core.updateFinishCallback = some cb then 1 else 0
  callbacks : u.core.currentState ∈ hostStates →
    u.host.updateCompleteCallback = u.core.updateFinishCallback

theorem CallbackInv.unmentioned (h : CallbackInv w) {cb : UpdateFinishCb}
    (hfin : Finishes env w .turn) (hq : w.queue = evt :: rest) (hm : mentions cb evt = false) :
    Unmentioned cb w (act env w .turn) := by
  rw [act_turn_cons env hq]
  by_cases hs : w.core.currentState ∈ hostStates
  · obtain ⟨hsame, hcalls⟩ := consume_host env evt cb (w := w.withQueue rest) h.settled hs
      (h.callbacks hs)
    have hfinish : (consume env evt (w.withQueue rest)).core.updateFinishCallback =
        w.core.updateFinishCallback := hsame.finish
    have hcomplete : (consume env evt (w.withQueue rest)).host.updateCompleteCallback =
        w.host.updateCompleteCallback := hsame.complete
    refine ⟨?_, ?_, ?_, ?_⟩
    · rw [released_core, hfinish]
      exact fun hcb => ⟨hcb, fun _ => hs⟩
    · rw [released_core, hfinish]
      exact fun _ => rfl
    · rw [turn_calls, hcalls, released_core]
      simp only [hs, true_and]
      rfl
    · rw [released_core, released_host, hfinish, hcomplete]
      exact fun _ => h.callbacks hs
  · by_cases hb : w.core.currentState = .idle ∧ ∃ buf, evt = { type := .beginHost, buf := some buf }
    · obtain ⟨hi, buf, he⟩ := hb
      obtain ⟨hfinish, hcomplete, hcalls, -⟩ := consume_begin env evt cb (w := w.withQueue rest)
        h.settled hi he
      have hne : buf.finishCb ≠ some cb := by
        simpa [mentions, he] using hm
      refine ⟨?_, fun hh => absurd hh hs, ?_, ?_⟩
      · rw [released_core, hfinish]
        exact fun hcb => absurd hcb hne
      · rw [turn_calls, hcalls, if_neg (fun hh => hs hh.1)]
        rfl
      · rw [released_core, released_host, hfinish, hcomplete]
        exact fun _ => rfl
    · have hgive : (w.withQueue rest).core.updateFinishCallback.isSome →
          clientGivesUp env (w.withQueue rest) evt = false := by
        rw [clientGivesUp_withQueue]
        exact (hfin rfl evt (by simp [hq])).2
      obtain ⟨hsame, hcalls, hstate⟩ := consume_other env evt cb (w := w.withQueue rest) h.settled
        hs h.page (fun hi buf he => hb ⟨hi, buf, he⟩) hgive
      have hfinish : (consume env evt (w.withQueue rest)).core.updateFinishCallback =
          w.core.updateFinishCallback := hsame.finish
      refine ⟨?_, fun hh => absurd hh hs, ?_, ?_⟩
      · rw [released_core, hfinish]
        exact fun hcb => ⟨hcb, fun hh => absurd hh hstate⟩
      · rw [turn_calls, hcalls, if_neg (fun hh => hs hh.1)]
        rfl
      · rw [released_core]
        exact fun hh => absurd hh hstate

/-- A turn on the request of `cb` opens its session, unless the machine is stuck. -/
theorem CallbackInv.mentioned (h : CallbackInv w) (env : Env) {cb : UpdateFinishCb}
    (hq : w.queue = evt :: rest) (hm : mentions cb evt = true)
    (hi : w.core.currentState = .idle) :
    (act env w .turn).core.updateFinishCallback = some cb ∧
      (act env w .turn).host.updateCompleteCallback = some cb ∧
      (act env w .turn).core.currentState = .hostReqUpdate ∧
      (act env w .turn).calls cb = w.calls cb := by
  obtain ⟨buf, hbuf, hcb⟩ := mentions_cases hm
  have he : evt = { type := .beginHost, buf := some buf } := by
    have ht : evt.type = .beginHost :=
      h.carriers evt (by simp [hq]) (by simp [carries, hbuf, hcb])
    rw [← ht, ← hbuf]
  obtain ⟨hfinish, hcomplete, hcalls, hstate⟩ := consume_begin env evt cb (w := w.withQueue rest)
    h.settled hi he
  rw [act_turn_cons env hq, released_core, released_host, turn_calls]
  exact ⟨hfinish.trans hcb, hcomplete.trans hcb, hstate, hcalls⟩

/-- A stuck machine ignores every event. -/
theorem consume_stuck (hw : Settled w) (h : w.stuck) : consume env evt w = w.withEvent evt := by
  have hpend : w.core.pendingStateChange = false := by
    rcases h with h | h
    · exact hw.pending_eq_false h (by decide)
    · exact h.2
  have hafter : w.afterRun env evt = w.withEvent evt := by
    unfold World.afterRun
    rcases h with h | h
    · rw [h]
      rfl
    · rw [h.1]
      rfl
  obtain ⟨-, ⟨-, hu⟩ | ⟨hp, -, -⟩⟩ := consume_cases env evt hw
  · rw [hu, hafter]
  · rw [hafter] at hp
    exact absurd (hp.symm.trans hpend) (by decide)

end Turn

/-! ## The standing of a request -/

/-- What is known of the request of `cb` at each stage. -/
def Standing (cb : UpdateFinishCb) (w : World) : Stage → Prop
  | .waiting => w.calls cb = 0 ∧ w.core.updateFinishCallback ≠ some cb ∧
    (w.stuck ∨ w.requests cb = 1)
  | .active => w.calls cb = 0 ∧ w.requests cb = 0 ∧ w.core.updateFinishCallback = some cb ∧
    w.core.currentState ∈ hostStates
  | .finished => w.calls cb = 1 ∧ w.requests cb = 0 ∧
    (w.core.updateFinishCallback = some cb → w.core.currentState ∉ hostStates)

/-- The callback is not in use. -/
structure Unused (cb : UpdateFinishCb) (w : World) : Prop where
  calls : w.calls cb = 0
  requests : w.requests cb = 0
  finish : w.core.updateFinishCallback ≠ some cb

section Standing
variable {env : Env} {w : World} {cb : UpdateFinishCb}

theorem mentions_of_requests {evt : BmDfuEvent} {rest : List BmDfuEvent}
    (hq : w.queue = evt :: rest) (h : w.requests cb = 0) : mentions cb evt = false := by
  have hno := List.countP_eq_zero.mp h evt (by simp [hq])
  simpa using hno

theorem CallbackInv.unused_turn (h : CallbackInv w) (hfin : Finishes env w .turn)
    (hcb : Unused cb w) : Unused cb (act env w .turn) := by
  cases hq : w.queue with
  | nil =>
    rw [act_turn_nil env hq]
    exact hcb
  | cons evt rest =>
    have hm := mentions_of_requests hq hcb.requests
    have hun := h.unmentioned hfin hq hm
    have hreq := turn_requests env cb h.settled hq
    refine ⟨?_, ?_, ?_⟩
    · rw [hun.calls, if_neg (fun hh => hcb.finish hh.2.2)]
      exact hcb.calls
    · have := hcb.requests
      omega
    · exact fun hh => hcb.finish (hun.finish hh).1

/-- A machine that is stuck leaves the request where it is. -/
theorem CallbackInv.waiting_stuck (h : CallbackInv w) {evt : BmDfuEvent} {rest : List BmDfuEvent}
    (hq : w.queue = evt :: rest) (hs : Standing cb w .waiting) (hstuck : w.stuck) :
    Standing cb (act env w .turn) (Stage.next env cb w .turn .waiting) := by
  obtain ⟨hcalls, hfinish, -⟩ := hs
  have hw : act env w .turn = ((w.withQueue rest).withEvent evt).released evt := by
    rw [act_turn_cons env hq, consume_stuck (w := w.withQueue rest) h.settled hstuck]
  have hne : w.core.currentState ≠ .idle := by
    rcases hstuck with hst | hst
    · rw [hst]
      decide
    · rw [hst.1]
      decide
  have hnext : Stage.next env cb w .turn .waiting = .waiting := by
    simp [Stage.next, hne]
  rw [hnext, hw]
  refine ⟨?_, ?_, .inl ?_⟩
  · rw [turn_calls]
    exact hcalls
  · rw [released_core]
    exact hfinish
  · unfold World.stuck World.fatal at hstuck ⊢
    rw [released_core]
    exact hstuck

/-- A waiting request becomes the session or goes on waiting. -/
theorem CallbackInv.waiting_turn (h : CallbackInv w) (hfin : Finishes env w .turn)
    {evt : BmDfuEvent} {rest : List BmDfuEvent} (hq : w.queue = evt :: rest)
    (hs : Standing cb w .waiting) :
    Standing cb (act env w .turn) (Stage.next env cb w .turn .waiting) := by
  by_cases hstuck : w.stuck
  · exact h.waiting_stuck hq hs hstuck
  obtain ⟨hcalls, hfinish, hstand⟩ := hs
  have hone : w.requests cb = 1 := hstand.resolve_left hstuck
  have hreq := turn_requests env cb h.settled hq
  cases hm : mentions cb evt with
  | true =>
    have hcarry : carries evt = true := by
      obtain ⟨buf, hbuf, hcb⟩ := mentions_cases hm
      simp [carries, hbuf, hcb]
    have hi : w.core.currentState = .idle :=
      ((hfin rfl evt (by simp [hq])).1 hcarry).resolve_right hstuck
    obtain ⟨hfin', -, hstate, hcalls'⟩ := h.mentioned env hq hm hi
    have hnext : Stage.next env cb w .turn .waiting = .active := by
      simp [Stage.next, hi, hq, hm]
    rw [hnext]
    refine ⟨hcalls'.trans hcalls, ?_, hfin', by rw [hstate]; decide⟩
    rw [hm] at hreq
    simp only [if_true] at hreq
    omega
  | false =>
    have hun := h.unmentioned hfin hq hm
    have hnext : Stage.next env cb w .turn .waiting = .waiting := by
      simp [Stage.next, hq, hm]
    rw [hnext]
    refine ⟨?_, fun hh => hfinish (hun.finish hh).1, .inr ?_⟩
    · rw [hun.calls, if_neg (fun hh => hfinish hh.2.2)]
      exact hcalls
    · rw [hm] at hreq
      exact hreq.trans hone

/-- A session goes on, or ends with the call. -/
theorem CallbackInv.active_turn (h : CallbackInv w) (hfin : Finishes env w .turn)
    {evt : BmDfuEvent} {rest : List BmDfuEvent} (hq : w.queue = evt :: rest)
    (hs : Standing cb w .active) :
    Standing cb (act env w .turn) (Stage.next env cb w .turn .active) := by
  obtain ⟨hcalls, hzero, hfinish, hhost⟩ := hs
  have hreq := turn_requests env cb h.settled hq
  have hun := h.unmentioned hfin hq (mentions_of_requests hq hzero)
  have hzero' : (act env w .turn).requests cb = 0 := by omega
  by_cases hst : (act env w .turn).core.currentState ∈ hostStates
  · rw [Stage.next, if_pos hst]
    refine ⟨?_, hzero', (hun.stays hhost).trans hfinish, hst⟩
    rw [hun.calls, if_neg (fun hh => hh.2.1 hst)]
    exact hcalls
  · rw [Stage.next, if_neg hst]
    refine ⟨?_, hzero', fun _ => hst⟩
    rw [hun.calls, if_pos ⟨hhost, hst, hfinish⟩, hcalls]

/-- A request that is over stays over. -/
theorem CallbackInv.over_turn (h : CallbackInv w) (hfin : Finishes env w .turn)
    {evt : BmDfuEvent} {rest : List BmDfuEvent} (hq : w.queue = evt :: rest)
    (hs : Standing cb w .finished) : Standing cb (act env w .turn) .finished := by
  obtain ⟨hcalls, hzero, hout⟩ := hs
  have hreq := turn_requests env cb h.settled hq
  have hun := h.unmentioned hfin hq (mentions_of_requests hq hzero)
  refine ⟨?_, by omega, ?_⟩
  · rw [hun.calls, if_neg (fun hh => hout hh.2.2 hh.1)]
    exact hcalls
  · intro hh hst
    obtain ⟨hbefore, hback⟩ := hun.finish hh
    exact hout hbefore (hback hst)

/-- A turn moves a request on. -/
theorem CallbackInv.standing_turn (h : CallbackInv w) (hfin : Finishes env w .turn) {s : Stage}
    (hs : Standing cb w s) : Standing cb (act env w .turn) (s.next env cb w .turn) := by
  cases hq : w.queue with
  | nil =>
    have hstage : s.next env cb w .turn = s := by
      cases s with
      | waiting => simp [Stage.next, hq]
      | active => simp [Stage.next, act_turn_nil env hq, hs.2.2.2]
      | finished => rfl
    rw [hstage, act_turn_nil env hq]
    exact hs
  | cons evt rest =>
    cases s with
    | waiting => exact h.waiting_turn hfin hq hs
    | active => exact h.active_turn hfin hq hs
    | finished => exact h.over_turn hfin hq hs

/-! ## The other actions -/

/-- What an action other than a turn does with the request of `cb`: nothing. -/
structure Untouched (cb : UpdateFinishCb) (w u : World) : Prop where
  calls : u.calls cb = w.calls cb
  requests : u.requests cb = w.requests cb

theorem Untouched.trans {u v : World} (h : Untouched cb w u) (g : Untouched cb u v) :
    Untouched cb w v :=
  ⟨g.calls.trans h.calls, g.requests.trans h.requests⟩

theorem untouched_emit {e : Effect} (he : e.isCallOf cb = false) (w : World) :
    Untouched cb w (w.emit e) :=
  ⟨by simp [World.calls, World.seen, he], rfl⟩

theorem untouched_queueSend {evt : BmDfuEvent} (he : mentions cb evt = false) (w : World) :
    Untouched cb w (bmQueueSend evt w).2 := by
  unfold bmQueueSend
  split
  · exact ⟨rfl, by simp [World.requests, List.countP_append, he]⟩
  · exact ⟨rfl, rfl⟩

theorem untouched_processMessage (buf : BmDfuBuf) (hb : buf.finishCb = none) (w : World) :
    Untouched cb w (bmDfuProcessMessage env buf w) := by
  unfold bmDfuProcessMessage bmFree
  dsimp only
  split
  · exact untouched_emit rfl w
  · split
    · exact untouched_emit rfl w
    · split
      · have hsend : ∀ type, Untouched cb w (bmQueueSend { type := type, buf := some buf } w).2 :=
          fun type => untouched_queueSend (by simp [mentions, hb]) w
        split
        · exact (hsend _).trans (untouched_emit rfl _)
        · exact hsend _
      · exact ⟨rfl, rfl⟩

/-- Refusing a request calls its own callback. -/
theorem untouched_refuse (c : Option UpdateFinishCb) (dest : UInt64) (w : World) :
    c ≠ some cb → Untouched cb w (match c with
      | some c => w.emit (.finishCallback c false .inProgress dest)
      | none => w) := by
  intro hc
  refine ⟨?_, ?_⟩
  · rw [calls_callback, if_neg hc]
    rfl
  · cases c <;> rfl

/-- A later request has another callback. -/
theorem untouched_initiateUpdate (env : Env) (info : BmDfuImgInfo) (dest : UInt64)
    (fn : Option Nat) (timeoutMs : Nat) (internal : Bool) (w : World)
    (hne : (fn.map fun f => { fn := f, call := w.log.length }) ≠ some cb) :
    Untouched cb w (bmDfuInitiateUpdate env info dest fn timeoutMs internal w).2 := by
  have hmalloc : Untouched cb w (bmMalloc env w).2 := untouched_emit rfl w
  have hsend : ∀ buf : BmDfuBuf, buf.finishCb = (fn.map fun f => ⟨f, w.log.length⟩) →
      Untouched cb w (bmQueueSend { type := .beginHost, buf := some buf }
      (bmMalloc env w).2).2 := by
    intro buf hbuf
    exact hmalloc.trans (untouched_queueSend (by simpa [mentions, hbuf] using hne) _)
  unfold bmDfuInitiateUpdate bmFree
  dsimp only
  split
  · exact ⟨rfl, rfl⟩
  · split
    · exact untouched_refuse _ dest w hne
    · split
      · exact hmalloc
      · split
        · refine Untouched.trans ?_ (untouched_refuse _ dest _ hne)
          refine Untouched.trans ?_ (untouched_emit rfl _)
          exact hsend _ (by rfl)
        · refine Untouched.trans (hsend _ ?_) ⟨rfl, rfl⟩
          rfl

/-- A request leaves a trace in the log, unless its chunk size is refused. -/
theorem initiateUpdate_log (env : Env) (info : BmDfuImgInfo) (dest : UInt64) (f : Nat)
    (timeoutMs : Nat) (internal : Bool) (w : World) :
    (bmDfuInitiateUpdate env info dest (some f) timeoutMs internal w).2 = w ∨
      w.log.length <
        (bmDfuInitiateUpdate env info dest (some f) timeoutMs internal w).2.log.length := by
  unfold bmDfuInitiateUpdate bmFree bmQueueSend
  dsimp only
  split
  · exact .inl rfl
  · right
    split
    · simp
    · split
      · simp
      · split
        · simp
        · split <;> simp
          omega

/-- An action other than a turn leaves the request of `cb` alone, unless it is the request. -/
theorem act_untouched (env : Env) (w : World) {a : Action} (ha : a ≠ .turn)
    (hne : ∀ info dest fn timeoutMs internal,
      a = .initiateUpdate info dest fn timeoutMs internal →
        (fn.map fun f => { fn := f, call := w.log.length }) ≠ some cb) :
    Untouched cb w (act env w a) := by
  cases a with
  | turn => exact absurd rfl ha
  | frame payload =>
    have hmalloc : Untouched cb w (bmMalloc env w).2 := untouched_emit rfl w
    simp only [act, dfuCopyAndProcessMessage]
    split
    · split
      · exact hmalloc.trans (untouched_processMessage _ rfl _)
      · exact hmalloc
    · exact ⟨rfl, rfl⟩
  | chunkTimer | ackTimer | updateTimer => exact untouched_queueSend rfl w
  | heartbeatTimer => exact untouched_emit rfl w
  | initiateUpdate info dest fn timeoutMs internal =>
    exact untouched_initiateUpdate env info dest fn timeoutMs internal w
      (hne info dest fn timeoutMs internal rfl)
  | queueData data =>
    simp only [act, bmDfuHostQueueData]
    split
    · exact ⟨by simp [World.calls, World.seen, Effect.isCallOf], rfl⟩
    · exact ⟨rfl, rfl⟩

/-- At most one event is queued, and only a local request carries a callback. -/
def Posted (q q' : List BmDfuEvent) : Prop :=
  q' = q ∨ ∃ evt, q' = q ++ [evt] ∧ (carries evt = true → evt.type = .beginHost)

theorem posted_queueSend {e : BmDfuEvent} (he : carries e = true → e.type = .beginHost)
    (w : World) : Posted w.queue (bmQueueSend e w).2.queue := by
  unfold bmQueueSend
  split
  · exact .inr ⟨e, rfl, he⟩
  · exact .inl rfl

theorem act_posted (env : Env) (w : World) {a : Action} (ha : a ≠ .turn) :
    Posted w.queue (act env w a).queue := by
  cases a with
  | turn => exact absurd rfl ha
  | frame payload =>
    simp only [act, dfuCopyAndProcessMessage, bmDfuProcessMessage, bmFree]
    split
    · split
      · split
        · exact .inl rfl
        · split
          · exact .inl rfl
          · split
            next type _ =>
              have h := posted_queueSend (e := ⟨type, some ⟨(bmMalloc env w).2.log.length,
                payload, none, 0⟩⟩) (fun hc => by simp [carries] at hc) (bmMalloc env w).2
              split <;> exact h
            · exact .inl rfl
      · exact .inl rfl
    · exact .inl rfl
  | chunkTimer | ackTimer | updateTimer =>
    exact posted_queueSend (fun hc => by cases hc) w
  | heartbeatTimer => exact .inl rfl
  | initiateUpdate info dest fn timeoutMs internal =>
    have h : ∀ buf, Posted w.queue
        (bmQueueSend { type := .beginHost, buf := buf } (bmMalloc env w).2).2.queue :=
      fun buf => posted_queueSend (fun _ => rfl) (bmMalloc env w).2
    simp only [act, bmDfuInitiateUpdate, bmFree]
    split
    · exact .inl rfl
    · split
      · cases fn <;> exact .inl rfl
      · split
        · exact .inl rfl
        · split
          · cases fn <;> exact h _
          · exact h _
  | queueData data =>
    simp only [act, bmDfuHostQueueData]
    split <;> exact .inl rfl

/-! ## Runs -/

theorem CallbackInv.turn (h : CallbackInv w) (hfin : Finishes env w .turn) :
    CallbackInv (act env w .turn) := by
  cases hq : w.queue with
  | nil =>
    rw [act_turn_nil env hq]
    exact h
  | cons evt rest =>
    refine ⟨act_settled env h.settled .turn, ?_, ?_, ?_⟩
    · rw [act_turn_cons env hq, released_core, released_client]
      exact consume_page h.settled h.page
    · -- some callback is not the one of this event
      have hother : ∃ cb, mentions cb evt = false := by
        cases hb : evt.buf with
        | none => exact ⟨⟨0, 0⟩, by simp [mentions, hb]⟩
        | some buf =>
          cases hc : buf.finishCb with
          | none => exact ⟨⟨0, 0⟩, by simp [mentions, hb, hc]⟩
          | some c => exact ⟨⟨c.fn + 1, 0⟩, by
              simp only [mentions, hb, hc, Option.any_some, beq_eq_false_iff_ne, ne_eq,
                Option.some.injEq]
              intro he
              have := congrArg UpdateFinishCb.fn he
              simp at this⟩
      obtain ⟨cb, hcb⟩ := hother
      exact (h.unmentioned hfin hq hcb).callbacks
    · intro e he hcarry
      rw [act_turn_cons env hq, released_queue] at he
      rcases (consume_grows env evt (w := w.withQueue rest) h.settled).queue.mem he with hm | rfl
      · exact h.carriers e (by rw [hq]; exact List.mem_cons_of_mem _ hm) hcarry
      · simp [carries] at hcarry

theorem CallbackInv.act (h : CallbackInv w) {a : Action} (hfin : Finishes env w a) :
    CallbackInv (act env w a) := by
  by_cases ha : a = .turn
  · subst ha
    exact h.turn hfin
  have hout := act_outside env w ha
  refine ⟨act_settled env h.settled a, ?_, ?_, ?_⟩
  · rw [hout.currentState, hout.client]
    exact h.page
  · rw [hout.currentState, hout.updateFinishCallback, hout.updateCompleteCallback]
    exact h.callbacks
  · intro e he hcarry
    rcases act_posted env w ha with hq | ⟨evt, hq, hevt⟩
    · rw [hq] at he
      exact h.carriers e he hcarry
    · rw [hq] at he
      rcases List.mem_append.mp he with hm | hm
      · exact h.carriers e hm hcarry
      · rw [List.mem_singleton.mp hm] at hcarry ⊢
        exact hevt hcarry

/-- The callbacks, and that a callback of a later call is not in use yet. -/
structure RequestInv (w : World) : Prop extends CallbackInv w where
  fresh : ∀ cb : UpdateFinishCb, w.log.length ≤ cb.call → Unused cb w

theorem RequestInv.log_le (h : RequestInv w) (env : Env) (a : Action) :
    w.log.length ≤ (Dfu.act env w a).log.length := by
  by_cases ha : a = .turn
  · subst ha
    cases hq : w.queue with
    | nil => rw [act_turn_nil env hq]
    | cons evt rest =>
      rw [act_turn_cons env hq]
      have hcons := (consume_grows env evt (w := w.withQueue rest) h.settled).log.length_le
      unfold World.released
      split
      · exact le_trans hcons (Nat.le_succ _)
      · exact hcons
  · exact (act_outside env w ha).log.length_le

theorem Untouched.unused {u : World} (h : Untouched cb w u)
    (hcb : u.core.updateFinishCallback = w.core.updateFinishCallback) (hw : Unused cb w) :
    Unused cb u :=
  ⟨h.calls.trans hw.calls, h.requests.trans hw.requests, by rw [hcb]; exact hw.finish⟩

theorem RequestInv.act (h : RequestInv w) {a : Action} (hfin : Finishes env w a) :
    RequestInv (act env w a) := by
  refine ⟨h.toCallbackInv.act hfin, ?_⟩
  intro cb hcb
  have hgrow := h.log_le env a
  have hunused := h.fresh cb (hgrow.trans hcb)
  by_cases ha : a = .turn
  · subst ha
    exact h.toCallbackInv.unused_turn hfin hunused
  have hout := act_outside env w ha
  by_cases hsame : Dfu.act env w a = w
  · rw [hsame]
    exact hunused
  refine (act_untouched env w ha ?_).unused hout.updateFinishCallback hunused
  rintro info dest fn timeoutMs internal rfl
  cases fn with
  | none => simp
  | some f =>
    intro hc
    have hlt := (initiateUpdate_log env info dest f timeoutMs internal w).resolve_left hsame
    have hcall : cb.call = w.log.length := by
      rw [← Option.some.inj hc]
    exact absurd (lt_of_lt_of_le hlt hcb) (by omega)

theorem Untouched.standing {u : World} (h : Untouched cb w u)
    (hfinish : u.core.updateFinishCallback = w.core.updateFinishCallback)
    (hstate : u.core.currentState = w.core.currentState)
    (hpend : u.core.pendingStateChange = w.core.pendingStateChange) {s : Stage}
    (hs : Standing cb w s) : Standing cb u s := by
  cases s with
  | waiting =>
    unfold Standing World.stuck World.fatal at hs ⊢
    rw [h.calls, h.requests, hfinish, hstate, hpend]
    exact hs
  | active | finished =>
    unfold Standing at hs ⊢
    rw [h.calls, h.requests, hfinish, hstate]
    exact hs

/-- What is known of an issued request in an observed run. -/
structure Tracked (cb : UpdateFinishCb) (s : World × Stage) : Prop where
  requests : RequestInv s.1
  issued : cb.call < s.1.log.length
  standing : Standing cb s.1 s.2

theorem Tracked.step {s : World × Stage} (h : Tracked cb s) {a : Action}
    (hfin : Finishes env s.1 a) : Tracked cb (observe env cb s a) := by
  refine ⟨h.requests.act hfin, lt_of_lt_of_le h.issued (h.requests.log_le env a), ?_⟩
  obtain ⟨w, stage⟩ := s
  by_cases ha : a = .turn
  · subst ha
    exact h.requests.toCallbackInv.standing_turn hfin h.standing
  have hout := act_outside env w ha
  have hstage : stage.next env cb w a = stage := by
    cases stage with
    | waiting => simp [Stage.next, ha]
    | active => simp [Stage.next, hout.currentState, h.standing.2.2.2]
    | finished => rfl
  show Standing cb (Dfu.act env w a) (stage.next env cb w a)
  rw [hstage]
  refine (act_untouched env w ha ?_).standing hout.updateFinishCallback hout.currentState
    hout.pendingStateChange h.standing
  rintro info dest fn timeoutMs internal rfl hc
  cases fn with
  | none => cases hc
  | some f =>
    have hcall : cb.call = w.log.length := by
      rw [← Option.some.inj hc]
    have hissued : cb.call < w.log.length := h.issued
    omega

/-- A request that is accepted waits in the queue. -/
theorem RequestInv.issue (h : RequestInv w) {info : BmDfuImgInfo} {dest : UInt64} {f : Nat}
    {timeoutMs : Nat} {internal : Bool}
    (htrue : (bmDfuInitiateUpdate env info dest (some f) timeoutMs internal w).1 = true)
    (hfin : Finishes env w (.initiateUpdate info dest (some f) timeoutMs internal)) :
    Tracked ⟨f, w.log.length⟩
      (Dfu.act env w (.initiateUpdate info dest (some f) timeoutMs internal), .waiting) := by
  have hunused := h.fresh ⟨f, w.log.length⟩ le_rfl
  have hout := act_outside env w (a := .initiateUpdate info dest (some f) timeoutMs internal)
    (by simp)
  have hsent : (bmDfuInitiateUpdate env info dest (some f) timeoutMs internal w).2.calls
      ⟨f, w.log.length⟩ = w.calls ⟨f, w.log.length⟩ ∧
      (bmDfuInitiateUpdate env info dest (some f) timeoutMs internal w).2.requests
        ⟨f, w.log.length⟩ = w.requests ⟨f, w.log.length⟩ + 1 ∧
      w.log.length <
        (bmDfuInitiateUpdate env info dest (some f) timeoutMs internal w).2.log.length := by
    unfold bmDfuInitiateUpdate bmQueueSend at htrue ⊢
    dsimp only at htrue ⊢
    split at htrue
    · cases htrue
    next hchunk =>
      rw [if_neg hchunk]
      split at htrue
      · cases htrue
      next hidle =>
        rw [if_neg hidle]
        split at htrue
        · cases htrue
        next hmalloc =>
          rw [if_neg hmalloc]
          split at htrue
          next hroom =>
            rw [if_pos hroom]
            refine ⟨?_, ?_, ?_⟩
            · simp [World.calls, World.seen, Effect.isCallOf]
            · simp [World.requests, List.countP_append, mentions]
            · simp
          · simp at htrue
  refine ⟨h.act hfin, hsent.2.2, ?_, ?_, .inr ?_⟩
  · exact hsent.1.trans hunused.calls
  · rw [hout.updateFinishCallback]
    exact hunused.finish
  · exact hsent.2.1.trans (by rw [hunused.requests])

theorem Tracked.calls_le_one {s : World × Stage} (h : Tracked cb s) : s.1.calls cb ≤ 1 := by
  have hstand := h.standing
  cases hst : s.2 with
  | waiting | active | finished =>
    rw [hst] at hstand
    have hcalls := hstand.1
    omega

/-- Back in Idle with nothing queued, the request is over. -/
theorem Tracked.calls_eq_one {s : World × Stage} (h : Tracked cb s)
    (hidle : s.1.core.currentState = .idle) (hempty : s.1.queue = []) : s.1.calls cb = 1 := by
  have hstand := h.standing
  cases hst : s.2 with
  | waiting =>
    rw [hst] at hstand
    rcases hstand.2.2 with hstuck | hone
    · rcases hstuck with hstuck | hstuck
      · rw [hidle] at hstuck
        cases hstuck
      · have herr := hstuck.1
        rw [hidle] at herr
        cases herr
    · simp [World.requests, hempty] at hone
  | active =>
    rw [hst] at hstand
    have hhost := hstand.2.2.2
    rw [hidle] at hhost
    exact absurd hhost (by decide)
  | finished =>
    rw [hst] at hstand
    exact hstand.1

end Standing

/-- A request that is over stays over. -/
theorem observe_over (env : Env) (cb : UpdateFinishCb) (as : List Action) {s : World × Stage}
    (h : s.2 = .finished) : (as.foldl (observe env cb) s).2 = .finished := by
  induction as generalizing s with
  | nil => exact h
  | cons a as ih => exact ih (by simp [observe, h, Stage.next])

/-- In every run in which a request is consumed in Idle and the client role gives nothing up while
the core context holds a callback, the callback of each accepted request is called at most once,
not after its session, and once when the machine is back in Idle with an empty queue. -/
theorem callback_once (env : Env) (self : UInt64) (reboot : RebootClientUpdateInfo)
    (flash : Nat → UInt8) (before after later : List Action) (info : BmDfuImgInfo)
    (dest : UInt64) (f timeoutMs : Nat) (internal : Bool)
    (hfin : Along (act env) (Finishes env) (bmDfuInit self reboot flash)
      (before ++ .initiateUpdate info dest (some f) timeoutMs internal :: (after ++ later)))
    (htrue : (bmDfuInitiateUpdate env info dest (some f) timeoutMs internal
      (before.foldl (act env) (bmDfuInit self reboot flash))).1 = true) :
    let w := before.foldl (act env) (bmDfuInit self reboot flash)
    let cb : UpdateFinishCb := ⟨f, w.log.length⟩
    let s := after.foldl (observe env cb)
      (act env w (.initiateUpdate info dest (some f) timeoutMs internal), .waiting)
    s.1.calls cb ≤ 1 ∧
      (s.2 = .finished → (later.foldl (act env) s.1).calls cb = s.1.calls cb) ∧
      (s.1.core.currentState = .idle → s.1.queue = [] → s.1.calls cb = 1) := by
  intro w cb s
  obtain ⟨hbefore, hissue, hrest⟩ := along_append.mp hfin
  obtain ⟨hafter, hlater⟩ := along_append.mp hrest
  have hobs : ∀ (t : World × Stage) a, (observe env cb t a).1 = act env t.1 a := fun _ _ => rfl
  have hstep : ∀ (t : World × Stage) a, Tracked cb t → Finishes env t.1 a →
      Tracked cb (observe env cb t a) := fun t a ht hf => ht.step hf
  have hinit : RequestInv (bmDfuInit self reboot flash) :=
    { settled := fun h => by cases h
      page := fun h => by cases h
      callbacks := fun _ => rfl
      carriers := by
        intro evt he
        rw [List.mem_singleton.mp he]
        exact fun h => by cases h
      fresh := fun cb _ => ⟨rfl, rfl, by simp [bmDfuInit]⟩ }
  have hw : RequestInv w := foldl_invariant (fun w a h hf => h.act hf) hinit hbefore
  have hs : Tracked cb s := foldl_invariant hstep (hw.issue htrue hissue)
    (along_observer hobs hafter)
  have hs₁ : s.1 = after.foldl (act env)
      (act env w (.initiateUpdate info dest (some f) timeoutMs internal)) :=
    foldl_observer hobs _ after
  refine ⟨hs.calls_le_one, fun hover => ?_, hs.calls_eq_one⟩
  have hend : Tracked cb (later.foldl (observe env cb) s) := by
    refine foldl_invariant hstep hs (along_observer hobs ?_)
    rw [hs₁]
    exact hlater
  have hend₁ : (later.foldl (observe env cb) s).1 = later.foldl (act env) s.1 :=
    foldl_observer hobs s later
  have hbefore := hs.standing
  have hthen := hend.standing
  rw [hover] at hbefore
  rw [observe_over env cb later hover] at hthen
  rw [← hend₁, hbefore.1]
  exact hthen.1

/-- Node 7 updates node 9: the Ack and the End frame of node 9 arrive. -/
def hostSession : List Action :=
  [.turn, .frame (resultFrame bcmpDFUAckMessage 9 7 1 .none), .turn, .turn,
    .frame (resultFrame bcmpDFUEndMessage 9 7 1 .none), .turn, .turn, .turn]

/-- A Start frame of node 9 with chunks that are too long. -/
def longChunks : List Action :=
  [.frame (startFrame 9 7 ⟨4, 2000, 0, 0, 0, 0, 2⟩), .turn]

theorem callback_once_hostSession :
    let env := Env.steady 1 4096 []
    let w := [Action.turn, .turn].foldl (act env) (bmDfuInit 7 .zero fun _ => 0)
    let cb : UpdateFinishCb := ⟨5, w.log.length⟩
    let s := hostSession.foldl (observe env cb)
      (act env w (.initiateUpdate ⟨4, 2, 0, 0, 0, 0, 2⟩ 9 (some 5) 1000 true), .waiting)
    s.1.core.currentState = .idle ∧ s.1.queue = [] ∧ s.1.calls cb = 1 :=
  ⟨by decide +kernel, by decide +kernel,
    (callback_once (Env.steady 1 4096 []) 7 .zero (fun _ => 0) [.turn, .turn] hostSession []
      ⟨4, 2, 0, 0, 0, 0, 2⟩ 9 5 1000 true (by decide +kernel) (by decide +kernel)).2.2
      (by decide +kernel) (by decide +kernel)⟩

/-- The session is over, and the error of the client role calls its callback again. -/
theorem longChunks_calls_again :
    let env := Env.steady 1 4096 []
    let w := [Action.turn, .turn].foldl (act env) (bmDfuInit 7 .zero fun _ => 0)
    let cb : UpdateFinishCb := ⟨5, w.log.length⟩
    let request := Action.initiateUpdate ⟨4, 2, 0, 0, 0, 0, 2⟩ 9 (some 5) 1000 true
    let s := hostSession.foldl (observe env cb) (act env w request, .waiting)
    (bmDfuInitiateUpdate env ⟨4, 2, 0, 0, 0, 0, 2⟩ 9 (some 5) 1000 true w).1 = true ∧
      s.2 = .finished ∧ s.1.calls cb = 1 ∧ (longChunks.foldl (act env) s.1).calls cb = 2 := by
  decide +kernel

end BmCore.Dfu
