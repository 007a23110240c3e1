import BmCore.Dfu.Paging

/-!
# The transition graph

Which states a run function may ask for, and what one iteration of the machine does with it.
Between two iterations a change is pending only in the two states whose entry functions ask for
one, so every other transition happens in the iteration that asked.
-/
namespace BmCore.Dfu
open Library

/-- The edges of the state machine. -/
def nextStates : BmDfuState → List BmDfuState
  | .init => [.idle, .clientRebootDone]
  | .idle => [.error, .clientReceiving, .hostReqUpdate]
  | .error => [.idle]
  | .clientReceiving => [.error, .clientValidating]
  | .clientValidating => [.error, .clientRebootReq]
  | .clientRebootReq => [.error, .clientActivating]
  | .clientRebootDone => [.idle]
  | .clientActivating => []
  | .hostReqUpdate => [.error, .hostUpdate]
  | .hostUpdate => [.error, .idle]

/-- No state is its own successor. -/
theorem not_mem_nextStates (s : BmDfuState) : s ∉ nextStates s := by
  cases s <;> decide

section Predecessors
variable {s : BmDfuState}

theorem eq_idle_of_receiving (h : .clientReceiving ∈ nextStates s) : s = .idle := by
  revert h
  cases s <;> decide
theorem eq_receiving_of_validating (h : .clientValidating ∈ nextStates s) :
    s = .clientReceiving := by
  revert h
  cases s <;> decide
theorem eq_validating_of_rebootReq (h : .clientRebootReq ∈ nextStates s) :
    s = .clientValidating := by
  revert h
  cases s <;> decide
theorem eq_rebootReq_of_activating (h : .clientActivating ∈ nextStates s) :
    s = .clientRebootReq := by
  revert h
  cases s <;> decide

end Predecessors

/-- From `c` to `c'` the core kept its state, its event and its identity, and every change asked
for leads to one of `targets`. -/
structure Asks (targets : List BmDfuState) (c c' : DfuCoreCtx) : Prop where
  currentState : c'.currentState = c.currentState
  currentEvent : c'.currentEvent = c.currentEvent
  selfNodeId : c'.selfNodeId = c.selfNodeId
  internal : c'.internal = c.internal
  target : c'.pendingStateChange = true →
    (c.pendingStateChange = true ∧ c'.newState = c.newState) ∨ c'.newState ∈ targets

namespace Asks
variable {ts : List BmDfuState} {c d e : DfuCoreCtx}

theorem refl (c : DfuCoreCtx) : Asks ts c c := ⟨rfl, rfl, rfl, rfl, fun h => .inl ⟨h, rfl⟩⟩

theorem of_eq (h : d = c) : Asks ts c d := by
  subst h
  exact .refl _

theorem trans (h : Asks ts c d) (g : Asks ts d e) : Asks ts c e where
  currentState := g.currentState.trans h.currentState
  currentEvent := g.currentEvent.trans h.currentEvent
  selfNodeId := g.selfNodeId.trans h.selfNodeId
  internal := g.internal.trans h.internal
  target hp := by
    rcases g.target hp with ⟨hd, hn⟩ | hm
    · rw [hn]
      exact h.target hd
    · exact .inr hm

end Asks

section
variable {ts : List BmDfuState} {s : BmDfuState} {w : World} {c : DfuCoreCtx}

theorem asks_setPending (hs : s ∈ ts) (hc : w.core = c) :
    Asks ts c (bmDfuSetPendingStateChange s w).core := by
  subst hc
  constructor <;> simp [hs]

theorem asks_clientError (hs : .error ∈ ts) (env : Env) (err : BmDfuErr) (hc : w.core = c) :
    Asks ts c (bmDfuClientTransitionToError env err w).core := by
  subst hc
  constructor <;> simp [hs]

theorem asks_hostError (hs : .error ∈ ts) (env : Env) (err : BmDfuErr) (hc : w.core = c) :
    Asks ts c (bmDfuHostTransitionToError env err w).core := by
  subst hc
  constructor <;> simp [hs]

theorem asks_clientTimerErrCheck (hs : .error ∈ ts) (env : Env) {call : BmErr × World}
    (hc : call.2.core = c) : Asks ts c (clientTimerErrCheck env call).2.core := by
  unfold clientTimerErrCheck
  split
  · exact asks_clientError hs env _ hc
  · exact .of_eq hc

theorem asks_hostTimerErrCheck (hs : .error ∈ ts) (env : Env) {call : BmErr × World}
    (hc : call.2.core = c) : Asks ts c (hostTimerErrCheck env call).2.core := by
  unfold hostTimerErrCheck
  split
  · exact asks_hostError hs env _ hc
  · exact .of_eq hc

end

/-! ## Client run functions -/

theorem asks_prepareSlot (env : Env) (info : BmDfuImgInfo) (w : World) :
    Asks (nextStates .idle) w.core (clientPrepareSlot env info w).core := by
  unfold clientPrepareSlot
  dsimp only
  split
  · split
    · exact asks_clientError (by decide) env _ (by simp)
    · exact asks_setPending (by decide) (by simp)
  · exact .of_eq (by simp)

theorem asks_processUpdateRequest (env : Env) (w : World) :
    Asks (nextStates .idle) w.core (bmDfuClientProcessUpdateRequest env w).core := by
  unfold bmDfuClientProcessUpdateRequest clientTakeStart
  dsimp only
  split
  · exact .refl _
  · split
    · split
      · exact asks_clientError (by decide) env _ (by simp)
      · split
        · exact asks_clientError (by decide) env _ (by simp)
        · exact (Asks.of_eq (by simp)).trans (asks_prepareSlot env _ _)
    · exact .of_eq (by simp)

theorem asks_clientNextChunk (env : Env) (w : World) :
    Asks (nextStates .clientReceiving) w.core (clientNextChunk env w).2.core := by
  unfold clientNextChunk
  dsimp only
  split
  · exact asks_clientTimerErrCheck (by decide) env (by simp)
  · have hend := (bmDfuProcessEnd_frame env (w.withClient { w.client with
      currentChunk := (w.client.currentChunk + 1) % 2 ^ 16, chunkRetryNum := 0 })).core
    split
    · exact asks_clientError (by decide) env _ hend
    · exact asks_setPending (by decide) hend

theorem asks_clientAcceptChunk (env : Env) (payload : List UInt8) (w : World) :
    Asks (nextStates .clientReceiving) w.core (clientAcceptChunk env payload w).2.core := by
  unfold clientAcceptChunk
  dsimp only
  have hpay := (bmDfuProcessPayload_frame env payload (w.withClient { w.client with
    chunkLength := payload.length
    runningCrc16 := crc16Ccitt w.client.runningCrc16 payload })).core
  refine Asks.trans ?_ (asks_clientNextChunk env _)
  split
  · exact asks_clientError (by decide) env _ hpay
  · exact .of_eq hpay

theorem asks_receivingRun (env : Env) (w : World) :
    Asks (nextStates .clientReceiving) w.core (sClientReceivingRun env w).2.core := by
  have herr : BmDfuState.error ∈ nextStates .clientReceiving := by decide
  unfold sClientReceivingRun clientChunkTimeout clientResync
  dsimp only
  split
  · split
    · exact .refl _
    · split
      · exact asks_clientError herr env _ (by simp)
      · exact (Asks.of_eq (by simp)).trans (asks_clientAcceptChunk env _ _)
  · split
    · exact asks_clientError herr env _ (by simp)
    · exact asks_clientTimerErrCheck herr env (by simp)
  · split
    · exact asks_clientError herr env _ (by simp)
    · exact asks_clientTimerErrCheck herr env (by simp)
  · exact asks_clientTimerErrCheck herr env (by simp)
  · exact .refl _

theorem asks_rebootReqRun (env : Env) (w : World) :
    Asks (nextStates .clientRebootReq) w.core (sClientRebootReqRun env w).2.core := by
  unfold sClientRebootReqRun
  dsimp only
  split
  · exact asks_setPending (by decide) (by simp)
  · exact .refl _
  · split
    · exact asks_clientError (by decide) env _ (by simp)
    · exact .of_eq (by simp)
  · exact .refl _

theorem asks_updateDoneRun (env : Env) (w : World) :
    Asks (nextStates .clientRebootDone) w.core (sClientUpdateDoneRun env w).2.core := by
  unfold sClientUpdateDoneRun bmDfuClientFailUpdateAndReboot
  dsimp only
  split
  · exact asks_setPending (by decide) (by simp)
  · exact .refl _
  · split <;> exact .of_eq (by simp)
  · exact .refl _

/-! ## Host run functions -/

theorem fillChunk_core (env : Env) (len : Nat) (w : World) :
    (fillChunk env len w).2.2.2.core = w.core := by
  unfold fillChunk
  dsimp only
  split
  · rfl
  · split <;> rfl

theorem asks_sendChunk {ts : List BmDfuState} (herr : .error ∈ ts) (env : Env) (req : List UInt8)
    (w : World) : Asks ts w.core (bmDfuHostSendChunk env req w).2.core := by
  have hfill := fillChunk_core env (chunkPayloadLen w.host) (bmMalloc env w).2
  unfold bmDfuHostSendChunk bmFree
  dsimp only
  split
  · exact .of_eq (by simp)
  · split
    · exact asks_hostError herr env _ hfill
    · split
      · exact .of_eq hfill
      · exact asks_hostError herr env _ hfill

theorem asks_reqUpdateRun (env : Env) (w : World) :
    Asks (nextStates .hostReqUpdate) w.core (sHostReqUpdateRun env w).2.core := by
  have herr : BmDfuState.error ∈ nextStates .hostReqUpdate := by decide
  unfold sHostReqUpdateRun
  dsimp only
  split
  · split
    · exact asks_hostError herr env _ (by simp)
    · split
      · split
        · exact asks_setPending (by decide) (by simp)
        · exact asks_hostError herr env _ (by simp)
      · exact .of_eq (by simp)
  · split
    · exact asks_hostError herr env _ (by simp)
    · exact asks_hostTimerErrCheck herr env (by simp)
  · exact asks_hostError herr env _ rfl
  · exact .refl _

theorem hostUpdateComplete_core (ok : Bool) (err : BmDfuErr) (w : World) :
    (hostUpdateComplete ok err w).core = w.core := by
  unfold hostUpdateComplete
  split <;> rfl

/-- Only the end of an update asks for Idle. -/
theorem asks_hostUpdateRun {ts : List BmDfuState} (herr : .error ∈ ts) (env : Env) {w : World}
    (hidle : w.core.currentEvent.type = .updateEnd → .idle ∈ ts) :
    Asks ts w.core (sHostUpdateRun env w).2.core := by
  unfold sHostUpdateRun
  dsimp only [bmDfuGetCurrentEvent]
  split
  · split
    next buf _ =>
      split
      · exact asks_hostError herr env _ (by simp)
      · have hs := asks_sendChunk herr env buf.bytes (bmTimerStart env .heartbeat w).2
        exact hs.trans (asks_hostTimerErrCheck herr env rfl)
    · exact .refl _
  · exact .of_eq (by simp)
  · split
    · exact .of_eq (by simp)
    · exact .refl _
  next hend =>
    split
    · exact asks_hostError herr env _ (by simp)
    · split
      · exact asks_setPending (hidle hend) (by simp [hostUpdateComplete_core])
      · exact .of_eq (by simp)
  · exact asks_hostError herr env _ rfl
  · exact .refl _

/-! ## All run functions -/

theorem asks_initRun (w : World) : Asks (nextStates .init) w.core (sInitRun w).2.core := by
  unfold sInitRun
  split
  · split <;> exact asks_setPending (by decide) rfl
  · exact .refl _

theorem asks_idleRun (env : Env) (w : World) :
    Asks (nextStates .idle) w.core (sIdleRun env w).2.core := by
  unfold sIdleRun bmDfuHostSetParams
  dsimp only
  split
  · exact asks_processUpdateRequest env w
  · constructor <;> simp [nextStates]
  · exact .refl _

/-- A run function keeps the current state and asks only for its successors. -/
theorem run_asks (env : Env) (w : World) :
    Asks (nextStates w.core.currentState) w.core
      ((dfuStates env w.core.currentState).run w).2.core := by
  cases h : w.core.currentState with
  | init => exact asks_initRun w
  | idle => exact asks_idleRun env w
  | error => exact .refl _
  | clientReceiving => exact asks_receivingRun env w
  | clientValidating => exact .refl _
  | clientRebootReq => exact asks_rebootReqRun env w
  | clientRebootDone => exact asks_updateDoneRun env w
  | clientActivating => exact .refl _
  | hostReqUpdate => exact asks_reqUpdateRun env w
  | hostUpdate => exact asks_hostUpdateRun (by decide) env fun _ => by decide

/-! ## Entering a state -/

/-- The world in which the entry function of `s` is called. -/
def World.entering (s : BmDfuState) (u : World) : World :=
  u.withCore { u.core with pendingStateChange := false, currentState := s }

/-- Leave the current state for the one asked for. -/
def World.moved (env : Env) (u : World) : World :=
  libSmEnter (dfuSm env) u.core.newState
    (u.withCore { u.core with pendingStateChange := false })

/-- Only `hostUpdate` has an exit function. -/
theorem moved_eq (env : Env) {u : World} (h : u.core.currentState ≠ .hostUpdate) :
    u.moved env = LibSmState.call (dfuStates env u.core.newState).onStateEntry
      (u.entering u.core.newState) := by
  unfold World.moved libSmEnter
  simp only [dfuSm, withCore_core]
  cases hs : u.core.currentState <;> first | exact absurd hs h | rfl

/-- Enter `t` from a state other than `hostUpdate`. -/
theorem moved_eq_entry (env : Env) {u : World} {s t : BmDfuState}
    (hs : u.core.currentState = s) (hne : s ≠ .hostUpdate) (ht : u.core.newState = t) :
    u.moved env = LibSmState.call (dfuStates env t).onStateEntry (u.entering t) := by
  rw [moved_eq env (by rw [hs]; exact hne), ht]

theorem moved_eq_of_hostUpdate (env : Env) {u : World} (h : u.core.currentState = .hostUpdate) :
    u.moved env = LibSmState.call (dfuStates env u.core.newState).onStateEntry
      ((sHostUpdateExit u).2.entering u.core.newState) := by
  have hexit : (dfuSm env).setCurrent u.core.newState (LibSmState.call
      (dfuStates env u.core.currentState).onStateExit
        (u.withCore { u.core with pendingStateChange := false })) =
      (sHostUpdateExit u).2.entering u.core.newState := by
    simp only [h, dfuStates, LibSmState.call, dfuSm]
    unfold sHostUpdateExit
    cases hq : u.host.dataQueue <;> simp only [withCore_host, hq] <;> rfl
  exact congrArg (LibSmState.call (dfuStates env u.core.newState).onStateEntry) hexit

/-- Between iterations a change is pending only where an entry function asked for it. -/
def Settled (w : World) : Prop :=
  w.core.pendingStateChange = true → w.core.currentState ∈ [.error, .clientValidating] ∧
    w.core.newState ∈ nextStates w.core.currentState

theorem Settled.pending_eq_false {w : World} (hw : Settled w) {s : BmDfuState}
    (hs : w.core.currentState = s) (h : s ∉ [.error, .clientValidating]) :
    w.core.pendingStateChange = false := by
  cases hp : w.core.pendingStateChange with
  | false => rfl
  | true =>
    rw [← hs] at h
    exact absurd (hw hp).1 h

/-- The world after the run function of the current state has seen `evt`. -/
def World.afterRun (env : Env) (evt : BmDfuEvent) (w : World) : World :=
  ((dfuStates env w.core.currentState).run (w.withEvent evt)).2

/-- An iteration ends in the world the run function leaves, or moves on to a successor. -/
theorem consume_cases (env : Env) (evt : BmDfuEvent) {w : World} (hw : Settled w) :
    let u := w.afterRun env evt
    u.core.currentState = w.core.currentState ∧
      ((u.core.pendingStateChange = false ∧ consume env evt w = u) ∨
        (u.core.pendingStateChange = true ∧
          u.core.newState ∈ nextStates w.core.currentState ∧
          consume env evt w = u.moved env)) := by
  intro u
  have ha : Asks (nextStates w.core.currentState) (w.withEvent evt).core u.core :=
    run_asks env (w.withEvent evt)
  refine ⟨ha.currentState, ?_⟩
  have hsettle : consume env evt w = settle env u := consume_eq env evt w
  rw [hsettle, settle]
  cases hp : u.core.pendingStateChange with
  | false => exact .inl ⟨rfl, rfl⟩
  | true =>
    have hnew : u.core.newState ∈ nextStates w.core.currentState := by
      rcases ha.target hp with ⟨hpend, hsame⟩ | hmem
      · rw [hsame]
        exact (hw hpend).2
      · exact hmem
    refine .inr ⟨rfl, hnew, ?_⟩
    · have hne : u.core.currentState ≠ u.core.newState := by
        intro he
        rw [← he, ha.currentState] at hnew
        exact not_mem_nextStates _ hnew
      rw [if_pos hne]
      rfl

/-! ## Entry functions -/

/-- The states an entry function may ask for. -/
def entryStates : BmDfuState → List BmDfuState
  | .error => [.idle]
  | .clientValidating => [.error, .clientRebootReq]
  | _ => []

/-- Call the entry function of the current state. -/
def World.onEntry (env : Env) (w : World) : World :=
  LibSmState.call (dfuStates env w.core.currentState).onStateEntry w

theorem coreUpdateFinish_core (w : World) : (coreUpdateFinish w).core = w.core := by
  unfold coreUpdateFinish
  split <;> rfl

theorem asks_errorEntry (w : World) :
    Asks (entryStates .error) w.core (sErrorEntry w).2.core := by
  unfold sErrorEntry
  dsimp only
  split
  · exact asks_setPending (by decide) (coreUpdateFinish_core w)
  · exact .of_eq (coreUpdateFinish_core w)

theorem asks_validatingEntry (env : Env) (w : World) :
    Asks (entryStates .clientValidating) w.core (sClientValidatingEntry env w).2.core := by
  unfold sClientValidatingEntry
  dsimp only
  split
  · exact asks_clientError (by decide) env _ (by simp)
  · split
    · exact asks_setPending (by decide) rfl
    · exact asks_clientError (by decide) env _ (by simp)

theorem startUpdateTimer_core (env : Env) (w : World) :
    (bmDfuHostStartUpdateTimer env w).2.core = w.core := by
  unfold bmDfuHostStartUpdateTimer
  dsimp only
  split
  · rfl
  · split <;> rfl

theorem reqUpdateEntry_core (env : Env) (w : World) :
    (sHostReqUpdateEntry env w).2.core = w.core := by
  unfold sHostReqUpdateEntry
  dsimp only
  split
  · rfl
  · split <;> simp

theorem updateDoneEntry_core (env : Env) (w : World) :
    (sClientUpdateDoneEntry env w).2.core = w.core := by
  unfold sClientUpdateDoneEntry bmDfuClientConfirmEnable bmDfuClientFailUpdateAndReboot
  dsimp only
  split
  · split <;> simp
  · simp

theorem entry_asks (env : Env) (w : World) :
    Asks (entryStates w.core.currentState) w.core (w.onEntry env).core := by
  unfold World.onEntry
  cases h : w.core.currentState with
  | init => exact .refl _
  | idle => exact .of_eq rfl
  | error => exact asks_errorEntry w
  | clientReceiving => exact .of_eq rfl
  | clientValidating => exact asks_validatingEntry env w
  | clientRebootReq => exact .of_eq rfl
  | clientRebootDone => exact .of_eq (updateDoneEntry_core env w)
  | clientActivating => exact .of_eq rfl
  | hostReqUpdate => exact .of_eq (reqUpdateEntry_core env w)
  | hostUpdate => exact .of_eq (startUpdateTimer_core env w)

theorem hostUpdateExit_core (w : World) : (sHostUpdateExit w).2.core = w.core := by
  unfold sHostUpdateExit
  split <;> rfl

/-- A move ends in the state asked for, and what it leaves pending was asked by its entry. -/
theorem moved_asks (env : Env) (u : World) :
    Asks (entryStates u.core.newState) (u.entering u.core.newState).core (u.moved env).core := by
  by_cases h : u.core.currentState = .hostUpdate
  · rw [moved_eq_of_hostUpdate env h]
    have hcore : ((sHostUpdateExit u).2.entering u.core.newState).core =
        (u.entering u.core.newState).core := by
      simp [World.entering, hostUpdateExit_core]
    rw [← hcore]
    exact entry_asks env ((sHostUpdateExit u).2.entering u.core.newState)
  · rw [moved_eq env h]
    exact entry_asks env (u.entering u.core.newState)

theorem moved_currentState (env : Env) (u : World) :
    (u.moved env).core.currentState = u.core.newState :=
  (moved_asks env u).currentState

theorem moved_settled (env : Env) (u : World) : Settled (u.moved env) := by
  intro hp
  have ha := moved_asks env u
  have hmem : (u.moved env).core.newState ∈ entryStates u.core.newState := by
    rcases ha.target hp with ⟨hpend, -⟩ | hmem
    · cases hpend
    · exact hmem
  rw [moved_currentState]
  revert hmem
  cases u.core.newState <;> simp [entryStates, nextStates]

/-- Between iterations the machine stays settled. -/
theorem consume_settled (env : Env) (evt : BmDfuEvent) {w : World} (hw : Settled w) :
    Settled (consume env evt w) := by
  obtain ⟨-, ⟨hp, hu⟩ | ⟨-, -, hu⟩⟩ := consume_cases env evt hw
  · rw [hu]
    intro h
    rw [hp] at h
    cases h
  · rw [hu]
    exact moved_settled env _

end BmCore.Dfu
