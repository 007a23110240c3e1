import BmCore.Dfu.Node
import Mathlib.Data.List.Induction

/-!
# Who frees a received frame

`bm_dfu_process_message` takes over the buffer of a frame. It frees the buffer of a frame that it
rejects or cannot queue; otherwise the event in the queue owns the buffer, and the event thread
frees it behind the event. A frame of an unknown type takes neither way. And an event thread whose
wait for the queue ends without an event frees the buffer of its last event once more.

A buffer is known by its pointer, the length of the log behind its allocation: no two buffers share
one, and a step of the node frees no buffer that was allocated before, except the one of the event
that it has run. -/
namespace BmCore.Dfu
open Library

def Effect.isFreeOf (ptr : Nat) : Effect → Bool
  | .free p => p == ptr
  | _ => false

/-- How often a buffer was freed. -/
def World.frees (ptr : Nat) (w : World) : Nat := (w.seen (Effect.isFreeOf ptr)).length

/-- An event owns a buffer. -/
def BmDfuEvent.owns (ptr : Nat) (evt : BmDfuEvent) : Bool := evt.buf.any (·.ptr == ptr)

/-- How many events in the queue own a buffer. -/
def World.owned (ptr : Nat) (w : World) : Nat := w.queue.countP (BmDfuEvent.owns ptr)

/-- The buffer is allocated between two states of a node. -/
def Allocated (ptr : Nat) (w u : World) : Prop := w.log.length < ptr ∧ ptr ≤ u.log.length

/-! ## Steps of the machine -/

section Machine
variable {env : Env} {ptr : Nat}

theorem frees_emit {e : Effect} (he : e.isFreeOf ptr = false) (w : World) :
    (w.emit e).frees ptr = w.frees ptr := by
  simp [World.frees, World.seen, he]

theorem frees_of_log {w u : World} (h : u.log = w.log) : u.frees ptr = w.frees ptr := by
  unfold World.frees World.seen
  rw [h]

theorem frees_bmFree (p : Nat) (w : World) :
    (bmFree p w).frees ptr = w.frees ptr + if p = ptr then 1 else 0 := by
  unfold World.frees World.seen bmFree
  rw [emit_log, List.filter_cons]
  by_cases h : p = ptr <;> simp [Effect.isFreeOf, h]

theorem ClientOnly.frees {w u : World} (h : ClientOnly w u) : u.frees ptr = w.frees ptr := by
  refine congrArg List.length (h.seen_of fun e he => ?_)
  cases e <;> first | rfl | cases he

theorem frees_hostError (err : BmDfuErr) (w : World) :
    (bmDfuHostTransitionToError env err w).frees ptr = w.frees ptr :=
  congrArg List.length (hostError_seen env err w fun _ _ => rfl)

theorem frees_hostTimerErrCheck (call : BmErr × World) :
    (hostTimerErrCheck env call).2.frees ptr = call.2.frees ptr := by
  unfold hostTimerErrCheck
  split
  · exact frees_hostError .aborted call.2
  · rfl

theorem frees_setPending (s : BmDfuState) (w : World) :
    (bmDfuSetPendingStateChange s w).frees ptr = w.frees ptr := by
  simp [World.frees, World.seen]

theorem frees_reqUpdateRun (w : World) : (sHostReqUpdateRun env w).2.frees ptr = w.frees ptr := by
  have hstop : ∀ t, (bmTimerStop env t w).2.frees ptr = w.frees ptr := fun t => frees_emit rfl w
  unfold sHostReqUpdateRun
  dsimp only
  split
  · split
    · exact (frees_hostError _ _).trans (hstop .ack)
    · split
      · split
        · exact (frees_setPending _ _).trans (hstop .ack)
        · exact (frees_hostError _ _).trans (hstop .ack)
      · exact hstop .ack
  · split
    · exact frees_hostError _ _
    · exact (frees_hostTimerErrCheck _).trans ((frees_emit rfl _).trans (frees_emit rfl _))
  · exact frees_hostError _ _
  · rfl

theorem frees_fillChunk (env : Env) (ptr len : Nat) (w : World) :
    (fillChunk env len w).2.2.2.frees ptr = w.frees ptr := by
  unfold fillChunk
  dsimp only
  split
  · exact frees_emit rfl w
  · split
    · exact frees_emit rfl _
    · rfl

/-- The log of a chunk grows with every call. -/
theorem fillChunk_suffix (env : Env) (len : Nat) (w : World) :
    w.log <:+ (fillChunk env len w).2.2.2.log :=
  (hostOnly_fillChunk env w len).log

/-- The buffer of a chunk is allocated and freed again. -/
theorem frees_sendChunk (req : List UInt8) (w : World)
    (h : ¬ Allocated ptr w (bmDfuHostSendChunk env req w).2) :
    (bmDfuHostSendChunk env req w).2.frees ptr = w.frees ptr := by
  have hmalloc : (bmMalloc env w).2.frees ptr = w.frees ptr := frees_emit rfl w
  have hlog : (bmMalloc env w).2.log.length = w.log.length + 1 := rfl
  unfold bmDfuHostSendChunk at h ⊢
  dsimp only at h ⊢
  generalize bmMalloc env w = m at *
  split at h
  next hno =>
    rw [if_pos hno]
    exact hmalloc
  next hok =>
    rw [if_neg hok]
    have hfill := frees_fillChunk env ptr (chunkPayloadLen w.host) m.2
    have hsuffix := (fillChunk_suffix env (chunkPayloadLen w.host) m.2).length_le
    generalize fillChunk env (chunkPayloadLen w.host) m.2 = f at *
    have hfree : ∀ v : World, m.2.log.length ≤ v.log.length → v.frees ptr = w.frees ptr →
        ¬ Allocated ptr w (bmFree m.2.log.length v) →
        (bmFree m.2.log.length v).frees ptr = w.frees ptr := by
      intro v hle hsame hnot
      rw [frees_bmFree, if_neg ?_, Nat.add_zero, hsame]
      rintro rfl
      exact hnot ⟨by omega, Nat.le_succ_of_le hle⟩
    split at h
    next herr =>
      rw [if_pos herr]
      refine hfree _ ?_ ((frees_hostError _ _).trans (hfill.trans hmalloc)) h
      exact Nat.le_trans hsuffix (hostError_suffix env _ _).length_le
    next herr =>
      rw [if_neg herr]
      have htx : ∀ frame, (bcmpTx env frame f.2.2.2).2.frees ptr = w.frees ptr :=
        fun frame => (frees_emit rfl _).trans (hfill.trans hmalloc)
      split at h
      next hsent =>
        rw [if_pos hsent]
        exact hfree _ (Nat.le_succ_of_le hsuffix) (htx _) h
      next hsent =>
        rw [if_neg hsent]
        have hlonger (v : World) (hle : f.2.2.2.log.length < v.log.length) :
            m.2.log.length ≤ (bmDfuHostTransitionToError env .imgChunkAccess v).log.length :=
          Nat.le_trans (by omega) (hostError_suffix env _ v).length_le
        exact hfree _ (hlonger _ (Nat.lt_succ_self _)) ((frees_hostError _ _).trans (htx _)) h

/-- A turn of a host frees the buffer of the chunk that it sends, and no other one. -/
theorem frees_hostUpdateRun (w : World) (h : ¬ Allocated ptr w (sHostUpdateRun env w).2) :
    (sHostUpdateRun env w).2.frees ptr = w.frees ptr := by
  have hstop : (bmTimerStop env .update w).2.frees ptr = w.frees ptr := frees_emit rfl w
  unfold sHostUpdateRun at h ⊢
  dsimp only at h ⊢
  split at h
  next htype =>
    split at h
    next buf hbuf =>
      have hstart : (bmTimerStart env .heartbeat w).2.frees ptr = w.frees ptr := frees_emit rfl w
      split at h
      next hfail =>
        rw [if_pos hfail]
        exact (frees_hostError _ _).trans hstart
      next hok =>
        rw [if_neg hok]
        have hlast : ∀ v : World,
            (hostTimerErrCheck env (bmTimerStop env .heartbeat v)).2.frees ptr = v.frees ptr :=
          fun v => (frees_hostTimerErrCheck _).trans (frees_emit rfl v)
        have hlonger : ∀ v : World,
            v.log.length ≤ (hostTimerErrCheck env (bmTimerStop env .heartbeat v)).2.log.length :=
          fun v => Nat.le_trans (Nat.le_succ _)
            (hostOnly_timerErrCheck env (bmTimerStop env .heartbeat v)).log.length_le
        refine (hlast _).trans ((frees_sendChunk buf.bytes _ fun halloc => h ?_).trans hstart)
        exact ⟨Nat.lt_of_succ_lt halloc.1, Nat.le_trans halloc.2 (hlonger _)⟩
    next hnone => rfl
  · exact frees_emit rfl w
  next htype =>
    split
    · exact frees_emit rfl w
    · rfl
  next htype =>
    split
    · exact (frees_hostError _ _).trans hstop
    · split
      · refine (frees_setPending _ _).trans (Eq.trans ?_ hstop)
        unfold hostUpdateComplete
        split
        · exact frees_emit rfl _
        · rfl
      · exact hstop
  · exact frees_hostError _ _
  · rfl

/-- What the run function of a state frees. -/
theorem run_frees (w : World) (h : ¬ Allocated ptr w
    ((dfuStates env w.core.currentState).run w).2) :
    ((dfuStates env w.core.currentState).run w).2.frees ptr = w.frees ptr := by
  cases hs : w.core.currentState with
  | init =>
    simp only [dfuStates, sInitRun]
    split
    · split <;> exact frees_setPending _ w
    · rfl
  | idle =>
    simp only [dfuStates, sIdleRun]
    split
    · exact (clientOnly_processUpdateRequest env w).frees
    · refine (frees_setPending _ _).trans (frees_of_log ?_)
      simp [bmDfuHostSetParams]
    · rfl
  | error | clientValidating | clientActivating => rfl
  | clientReceiving => exact (clientOnly_receivingRun env w).frees
  | clientRebootReq => exact (clientOnly_rebootReqRun env w).frees
  | clientRebootDone => exact (clientOnly_updateDoneRun env w).frees
  | hostReqUpdate => exact frees_reqUpdateRun w
  | hostUpdate =>
    rw [hs] at h
    exact frees_hostUpdateRun w h

/-- An entry function frees nothing. -/
theorem entry_frees (w : World) : (w.onEntry env).frees ptr = w.frees ptr := by
  unfold World.onEntry
  cases w.core.currentState with
  | init | idle => rfl
  | clientActivating => exact frees_emit rfl w
  | error => exact congrArg List.length (errorEntry_seen (fun _ _ _ _ => rfl) w)
  | clientReceiving => exact (clientOnly_receivingEntry env w).frees
  | clientValidating => exact (clientOnly_validatingEntry env w).frees
  | clientRebootReq => exact (clientOnly_rebootReqEntry env w).frees
  | clientRebootDone => exact (clientOnly_updateDoneEntry env w).frees
  | hostReqUpdate =>
    simp only [dfuStates, LibSmState.call, sHostReqUpdateEntry]
    split
    · rfl
    · split
      · exact (frees_emit rfl _).trans ((frees_emit rfl _).trans (frees_emit rfl _))
      · exact (frees_emit rfl _).trans (frees_emit rfl _)
  | hostUpdate =>
    simp only [dfuStates, LibSmState.call, sHostUpdateEntry, bmDfuHostStartUpdateTimer]
    split
    · exact frees_emit rfl _
    · split
      · exact (frees_emit rfl _).trans (frees_emit rfl _)
      · exact (frees_emit rfl _).trans ((frees_emit rfl _).trans (frees_emit rfl _))

theorem moved_frees (u : World) : (u.moved env).frees ptr = u.frees ptr := by
  by_cases h : u.core.currentState = .hostUpdate
  · rw [moved_eq_of_hostUpdate env h]
    refine (entry_frees ((sHostUpdateExit u).2.entering u.core.newState)).trans ?_
    change (sHostUpdateExit u).2.frees ptr = u.frees ptr
    unfold sHostUpdateExit
    split
    · exact frees_emit rfl u
    · rfl
  · rw [moved_eq env h]
    exact entry_frees (u.entering u.core.newState)

/-- One iteration frees no buffer that it has not allocated. -/
theorem consume_frees {w : World} {evt : BmDfuEvent} (hw : Settled w)
    (h : ¬ Allocated ptr w (consume env evt w)) : (consume env evt w).frees ptr = w.frees ptr := by
  have hrun : (w.afterRun env evt).log.length ≤ (consume env evt w).log.length →
      (w.afterRun env evt).frees ptr = w.frees ptr := by
    intro hle
    exact run_frees (w.withEvent evt) fun halloc => h ⟨halloc.1, Nat.le_trans halloc.2 hle⟩
  obtain ⟨-, ⟨-, hu⟩ | ⟨-, -, hu⟩⟩ := consume_cases env evt hw
  · rw [hu] at hrun ⊢
    exact hrun (Nat.le_refl _)
  · rw [hu] at hrun ⊢
    exact (moved_frees _).trans (hrun (moved_grows env _).log.length_le)

end Machine

/-! ## Actions -/

/-- What an action other than a turn does to a buffer that it does not allocate: no more than one
event is queued, and that one does not own it. -/
structure Posts (ptr : Nat) (w u : World) : Prop where
  frees : u.frees ptr = w.frees ptr
  queue : u.queue = w.queue ∨ ∃ evt, u.queue = w.queue ++ [evt] ∧ evt.owns ptr = false

section Actions
variable {env : Env} {ptr : Nat}

theorem Posts.refl (w : World) : Posts ptr w w := ⟨rfl, .inl rfl⟩

theorem Posts.emit {w u : World} (h : Posts ptr w u) {e : Effect} (he : e.isFreeOf ptr = false) :
    Posts ptr w (u.emit e) :=
  ⟨(frees_emit he u).trans h.frees, h.queue⟩

theorem Posts.queueSend {w u : World} (h : Posts ptr w u) (hq : u.queue = w.queue)
    {evt : BmDfuEvent}
    (hevt : evt.owns ptr = false) : Posts ptr w (bmQueueSend evt u).2 := by
  unfold bmQueueSend
  split
  · refine ⟨h.frees, .inr ⟨evt, ?_, hevt⟩⟩
    rw [withQueue_queue, hq]
  · exact h

theorem Posts.bmFree {w u : World} (h : Posts ptr w u) {p : Nat} (hp : p ≠ ptr) :
    Posts ptr w (bmFree p u) :=
  h.emit (beq_eq_false_iff_ne.mpr hp)

theorem posts_processMessage {buf : BmDfuBuf} (hbuf : buf.ptr ≠ ptr) {w u : World}
    (h : Posts ptr w u)
    (hq : u.queue = w.queue) : Posts ptr w (bmDfuProcessMessage env buf u) := by
  have hsend : ∀ type, Posts ptr w (bmQueueSend { type := type, buf := some buf } u).2 :=
    fun type => h.queueSend hq (beq_eq_false_iff_ne.mpr hbuf)
  unfold bmDfuProcessMessage
  dsimp only
  split
  · exact h.bmFree hbuf
  · split
    · exact h.bmFree hbuf
    · split
      next type _ =>
        split
        · exact (hsend type).bmFree hbuf
        · exact hsend type
      · exact h

theorem posts_refuse {w u : World} (h : Posts ptr w u) (cb : Option UpdateFinishCb)
    (dest : UInt64) :
    Posts ptr w (match cb with
      | some cb => u.emit (.finishCallback cb false .inProgress dest)
      | none => u) := by
  split
  · exact h.emit rfl
  · exact h

/-- The first buffer that an action allocates. -/
theorem ne_of_not_allocated {w u v : World} (hv : v.log.length = w.log.length + 1)
    (hsuffix : v.log <:+ u.log)
    (h : ¬ Allocated ptr w u) : v.log.length ≠ ptr := by
  rintro rfl
  exact h ⟨by omega, hsuffix.length_le⟩

theorem posts_initiateUpdate {w : World} {info : BmDfuImgInfo} {dest : UInt64} {fn : Option Nat}
    {timeoutMs : Nat}
    {internal : Bool} (h : ¬ Allocated ptr w
      (bmDfuInitiateUpdate env info dest fn timeoutMs internal w).2) :
    Posts ptr w (bmDfuInitiateUpdate env info dest fn timeoutMs internal w).2 := by
  have hmalloc : Posts ptr w (bmMalloc env w).2 := (Posts.refl w).emit rfl
  have hsend : ∀ buf : BmDfuBuf, buf.ptr ≠ ptr →
      Posts ptr w (bmQueueSend { type := .beginHost, buf := some buf } (bmMalloc env w).2).2 :=
    fun buf hbuf => hmalloc.queueSend rfl (beq_eq_false_iff_ne.mpr hbuf)
  unfold bmDfuInitiateUpdate at h ⊢
  dsimp only at h ⊢
  split at h
  next hsize =>
    rw [if_pos hsize]
    exact .refl w
  next hsize =>
    rw [if_neg hsize]
    split at h
    next hbusy =>
      rw [if_pos hbusy]
      exact posts_refuse (.refl w) _ dest
    next hidle =>
      rw [if_neg hidle]
      split at h
      next hno =>
        rw [if_pos hno]
        exact hmalloc
      next hok =>
        rw [if_neg hok]
        split at h
        next hfull =>
          rw [if_pos hfull]
          have hne := ne_of_not_allocated rfl
            (((outside_queueSend _ _).trans (outside_emit rfl _)).trans
            (outside_refuse _ dest _)).log h
          exact posts_refuse ((hsend _ hne).bmFree hne) _ dest
        next hsent =>
          rw [if_neg hsent]
          have hne := ne_of_not_allocated rfl (outside_queueSend _ _).log h
          exact ⟨(hsend _ hne).frees, (hsend _ hne).queue⟩

/-- The buffer of a frame or a request is new. -/
theorem act_posts (env : Env) {w : World} {a : Action} (ha : a ≠ .turn)
    (h : ¬ Allocated ptr w (act env w a)) :
    Posts ptr w (act env w a) := by
  cases a with
  | turn => exact absurd rfl ha
  | frame payload =>
    have hmalloc : Posts ptr w (bmMalloc env w).2 := (Posts.refl w).emit rfl
    unfold act dfuCopyAndProcessMessage at h ⊢
    dsimp only at h ⊢
    split at h
    next hdst =>
      rw [if_pos hdst]
      split at h
      next hok =>
        rw [if_pos hok]
        have hne := ne_of_not_allocated (v := (bmMalloc env w).2) rfl
          (outside_processMessage env _ _).log h
        exact posts_processMessage hne hmalloc rfl
      next hno =>
        rw [if_neg hno]
        exact hmalloc
    next hdst =>
      rw [if_neg hdst]
      exact .refl w
  | chunkTimer | ackTimer | updateTimer => exact (Posts.refl w).queueSend rfl rfl
  | heartbeatTimer => exact (Posts.refl w).emit rfl
  | initiateUpdate info dest fn timeoutMs internal => exact posts_initiateUpdate h
  | queueData data =>
    unfold act bmDfuHostQueueData
    dsimp only
    split
    · exact ⟨frees_emit rfl w, .inl rfl⟩
    · exact .refl w

end Actions

/-! ## Runs -/

section Runs
variable {env : Env} {ptr : Nat}

theorem released_frees (evt : BmDfuEvent) (w : World) :
    (w.released evt).frees ptr = w.frees ptr + if evt.owns ptr then 1 else 0 := by
  unfold World.released BmDfuEvent.owns
  cases evt.buf with
  | none => rfl
  | some buf => simp [frees_bmFree]

theorem NopsAdded.owned {q q' : List BmDfuEvent} (h : NopsAdded q q') :
    q'.countP (BmDfuEvent.owns ptr) = q.countP (BmDfuEvent.owns ptr) := by
  obtain ⟨n, rfl⟩ := h
  have hnone : (List.replicate n ({ type := .none } : BmDfuEvent)).countP (BmDfuEvent.owns ptr) =
      0 := by
    rw [List.countP_eq_zero]
    intro evt hmem
    rw [List.eq_of_mem_replicate hmem]
    exact Bool.false_ne_true
  rw [List.countP_append, hnone, Nat.add_zero]

theorem turn_suffix {w : World} {evt : BmDfuEvent} {rest : List BmDfuEvent}
    (hq : w.queue = evt :: rest) :
    (consume env evt (w.withQueue rest)).log.length ≤ (act env w .turn).log.length := by
  rw [act_turn_cons env hq]
  unfold World.released
  split
  · exact Nat.le_succ _
  · exact Nat.le_refl _

theorem act_log_le (env : Env) {w : World} (hw : Settled w) (a : Action) :
    w.log.length ≤ (act env w a).log.length := by
  by_cases ha : a = .turn
  · subst ha
    cases hq : w.queue with
    | nil => rw [act_turn_nil env hq]
    | cons evt rest =>
      have hgrows := consume_grows env evt (w := w.withQueue rest) hw
      exact Nat.le_trans hgrows.log.length_le (turn_suffix hq)
  · exact (act_outside env w ha).log.length_le

/-- A turn frees the buffer of its event behind it. -/
theorem turn_frees (env : Env) {w : World} (hw : Settled w) {evt : BmDfuEvent}
    {rest : List BmDfuEvent}
    (hq : w.queue = evt :: rest) (h : ¬ Allocated ptr w (act env w .turn)) :
    (consume env evt (w.withQueue rest)).frees ptr = w.frees ptr ∧
      (act env w .turn).frees ptr = w.frees ptr + (if evt.owns ptr then 1 else 0) ∧
      (act env w .turn).owned ptr + (if evt.owns ptr then 1 else 0) = w.owned ptr := by
  have hconsume : (consume env evt (w.withQueue rest)).frees ptr = w.frees ptr := by
    refine (consume_frees (w := w.withQueue rest) hw fun halloc => h ?_).trans rfl
    exact ⟨halloc.1, Nat.le_trans halloc.2 (turn_suffix hq)⟩
  refine ⟨hconsume, ?_, ?_⟩
  · rw [act_turn_cons env hq, released_frees, hconsume]
  · have hgrows := consume_grows env evt (w := w.withQueue rest) hw
    rw [act_turn_cons env hq, World.owned, released_queue, hgrows.queue.owned, World.owned, hq,
      List.countP_cons]
    rfl

/-- An action hands a buffer on, or frees it: what owns it and what has freed it stay the same in
number. -/
theorem act_balance {w : World} (hw : Settled w) {a : Action}
    (h : ¬ Allocated ptr w (act env w a)) :
    (act env w a).frees ptr + (act env w a).owned ptr = w.frees ptr + w.owned ptr := by
  by_cases ha : a = .turn
  · subst ha
    cases hq : w.queue with
    | nil => rw [act_turn_nil env hq]
    | cons evt rest =>
      obtain ⟨-, hfrees, howned⟩ := turn_frees env hw hq h
      omega
  · have hposts := act_posts env ha h
    have howned : (act env w a).owned ptr = w.owned ptr := by
      unfold World.owned
      rcases hposts.queue with hsame | ⟨evt, hsent, hevt⟩
      · rw [hsame]
      · rw [hsent, List.countP_append, List.countP_singleton, hevt]
        rfl
    rw [hposts.frees, howned]

/-- An action of the node, or a wait of the event thread that ends without an event. -/
inductive ThreadStep where
  | act (a : Action)
  | timeout
  deriving DecidableEq

/-- `bm_dfu_event_thread` when `bm_queue_receive` fails: the type of the current event is reset, its
buffer is not. -/
def receiveTimeout (w : World) : World :=
  if w.queue = [] then
    let w := w.withCore { w.core with currentEvent := { w.core.currentEvent with type := .none } }
    match w.core.currentEvent.buf with
    | some buf => bmFree buf.ptr w
    | none => w
  else w

def threadStep (env : Env) (w : World) : ThreadStep → World
  | .act a => act env w a
  | .timeout => receiveTimeout w

/-- A wait that ends without an event finds no buffer left over from the last event. -/
def NoneLeft (w : World) : ThreadStep → Prop
  | .act _ => True
  | .timeout => w.queue = [] → w.core.currentEvent.buf = none

instance (w : World) (l : ThreadStep) : Decidable (NoneLeft w l) :=
  match l with
  | .act _ => inferInstanceAs (Decidable True)
  | .timeout => inferInstanceAs (Decidable (_ → _))

/-- Such a wait changes nothing that matters. -/
theorem timeout_same {w : World} (h : NoneLeft w .timeout) : (receiveTimeout w).log = w.log ∧
    (receiveTimeout w).queue = w.queue ∧ (Settled w → Settled (receiveTimeout w)) := by
  unfold receiveTimeout
  split
  next hq =>
    have hnone := h hq
    dsimp only
    rw [withCore_core, hnone]
    exact ⟨rfl, rfl, fun hw => hw⟩
  · exact ⟨rfl, rfl, fun hw => hw⟩

theorem threadStep_settled {w : World} (hw : Settled w) {l : ThreadStep} (hl : NoneLeft w l) :
    Settled (threadStep env w l) := by
  cases l with
  | act a => exact act_settled env hw a
  | timeout => exact (timeout_same hl).2.2 hw

theorem threadStep_log_le (env : Env) {w : World} (hw : Settled w) {l : ThreadStep}
    (hl : NoneLeft w l) :
    w.log.length ≤ (threadStep env w l).log.length := by
  cases l with
  | act a => exact act_log_le env hw a
  | timeout => exact Nat.le_of_eq (congrArg List.length (timeout_same hl).1.symm)

theorem threadStep_balance {w : World} (hw : Settled w) {l : ThreadStep} (hl : NoneLeft w l)
    (h : ¬ Allocated ptr w (threadStep env w l)) :
    (threadStep env w l).frees ptr + (threadStep env w l).owned ptr = w.frees ptr +
      w.owned ptr := by
  cases l with
  | act a => exact act_balance hw h
  | timeout =>
    obtain ⟨hlog, hqueue, -⟩ := timeout_same hl
    have howned : (receiveTimeout w).owned ptr = w.owned ptr := by
      rw [World.owned, hqueue, World.owned]
    exact congrArg₂ (· + ·) (frees_of_log hlog) howned

/-- What is known of a buffer along a run. -/
structure Held (ptr n : Nat) (w : World) : Prop where
  settled : Settled w
  allocated : ptr ≤ w.log.length
  balance : w.frees ptr + w.owned ptr = n

theorem Held.next {w : World} {n : Nat} (h : Held ptr n w) {l : ThreadStep} (hl : NoneLeft w l) :
    Held ptr n (threadStep env w l) := by
  have hnot : ¬ Allocated ptr w (threadStep env w l) :=
    fun halloc => absurd halloc.1 (Nat.not_lt.mpr h.allocated)
  exact ⟨threadStep_settled h.settled hl, Nat.le_trans h.allocated
    (threadStep_log_le env h.settled hl),
    (threadStep_balance h.settled hl hnot).trans h.balance⟩

theorem Held.run {w : World} {n : Nat} (h : Held ptr n w) {ls : List ThreadStep}
    (hls : Along (threadStep env) NoneLeft w ls) : Held ptr n (ls.foldl (threadStep env) w) :=
  foldl_invariant (fun _ _ h hl => h.next hl) h hls

/-- A buffer that is not allocated yet is neither owned nor freed. -/
theorem run_fresh {self : UInt64} {info : RebootClientUpdateInfo} {flash : Nat → UInt8}
    {ls : List ThreadStep}
    (hls : Along (threadStep env) NoneLeft (bmDfuInit self info flash) ls) (ptr : Nat) :
    let w := ls.foldl (threadStep env) (bmDfuInit self info flash)
    Settled w ∧ (w.log.length < ptr → w.frees ptr + w.owned ptr = 0) := by
  intro w
  let Inv : World → Prop := fun w => Settled w ∧
    (w.log.length < ptr → w.frees ptr + w.owned ptr = 0)
  have hinit : Inv (bmDfuInit self info flash) := by
    refine ⟨fun hpending => ?_, fun _ => rfl⟩
    cases hpending
  have hstep : ∀ w l, Inv w → NoneLeft w l → Inv (threadStep env w l) := by
    intro w l h hl
    refine ⟨threadStep_settled h.1 hl, fun hlt => ?_⟩
    rw [threadStep_balance h.1 hl fun halloc => absurd halloc.2 (Nat.not_le.mpr hlt)]
    exact h.2 (Nat.lt_of_le_of_lt (threadStep_log_le env h.1 hl) hlt)
  exact foldl_invariant hstep hinit hls

/-- Behind the first `n` events of a queue nothing owns the buffer, also when other events are
added. -/
theorem drop_append_owns {q added : List BmDfuEvent} {n : Nat}
    (hq : ∀ evt ∈ q.drop n, evt.owns ptr = false)
    (hadded : ∀ evt ∈ added, evt.owns ptr = false) : ∀ evt ∈ (q ++ added).drop n,
    evt.owns ptr = false := by
  intro evt hmem
  rw [List.drop_append] at hmem
  rcases List.mem_append.mp hmem with hold | hnew
  · exact hq evt hold
  · exact hadded evt (List.mem_of_mem_drop hnew)

theorem turn_drop {w : World} (hw : Settled w) {n : Nat}
    (hq : ∀ evt ∈ w.queue.drop n, evt.owns ptr = false) :
    ∀ evt ∈ (act env w .turn).queue.drop (n - 1), evt.owns ptr = false := by
  cases hqueue : w.queue with
  | nil =>
    rw [act_turn_nil env hqueue, hqueue]
    simp
  | cons evt rest =>
    obtain ⟨k, hk⟩ := (consume_grows env evt (w := w.withQueue rest) hw).queue
    rw [act_turn_cons env hqueue, released_queue, hk]
    refine drop_append_owns ?_ ?_
    · rw [hqueue] at hq
      cases n with
      | zero => exact fun e hmem => hq e (List.mem_cons_of_mem evt hmem)
      | succ n => exact hq
    · intro e hmem
      rw [List.eq_of_mem_replicate hmem]
      rfl

theorem act_drop {w : World} {a : Action} (ha : a ≠ .turn) (hptr : ptr ≤ w.log.length) {n : Nat}
    (hq : ∀ evt ∈ w.queue.drop n, evt.owns ptr = false) :
    ∀ evt ∈ (act env w a).queue.drop n, evt.owns ptr = false := by
  have hposts := act_posts env ha fun halloc => absurd halloc.1 (Nat.not_lt.mpr hptr)
  rcases hposts.queue with hsame | ⟨evt, hsent, hevt⟩
  · rw [hsame]
    exact hq
  · rw [hsent]
    refine drop_append_owns hq fun e hmem => ?_
    rw [List.mem_singleton.mp hmem]
    exact hevt

/-- After as many turns as there are events in front of it, no event owns the buffer. -/
theorem owned_after_turns {w : World} {m : Nat} (h : Held ptr m w) {n : Nat}
    (hq : ∀ evt ∈ w.queue.drop n, evt.owns ptr = false) {ls : List ThreadStep}
    (hls : Along (threadStep env) NoneLeft w ls) (hn : n ≤ ls.count (.act .turn)) :
    (ls.foldl (threadStep env) w).owned ptr = 0 := by
  induction ls generalizing w n with
  | nil =>
    obtain rfl : n = 0 := Nat.le_zero.mp hn
    refine List.countP_eq_zero.mpr fun evt hmem => ?_
    rw [hq evt hmem]
    exact Bool.false_ne_true
  | cons l ls ih =>
    obtain ⟨hl, hls⟩ := hls
    have hnext : Held ptr m (threadStep env w l) := h.next hl
    rw [List.foldl_cons]
    by_cases hturn : l = .act .turn
    · subst hturn
      rw [List.count_cons_self] at hn
      exact ih hnext (turn_drop h.settled hq) hls (by omega)
    · rw [List.count_cons_of_ne (fun heq => hturn heq)] at hn
      refine ih hnext ?_ hls hn
      cases l with
      | act a => exact act_drop (fun ha => hturn (congrArg ThreadStep.act ha)) h.allocated hq
      | timeout =>
        change ∀ evt ∈ (receiveTimeout w).queue.drop n, _
        rw [(timeout_same hl).2.1]
        exact hq

end Runs

/-! ## Received frames -/

/-- In every run from `w` on in which no wait finds a buffer left over, the buffer is freed exactly
once: it is freed already, or one event owns it and it is freed behind this event; as many turns as
there are events in the queue are enough. -/
structure FreedOnce (env : Env) (ptr : Nat) (w : World) : Prop where
  once : ∀ ls, Along (threadStep env) NoneLeft w ls →
    (ls.foldl (threadStep env) w).frees ptr + (ls.foldl (threadStep env) w).owned ptr = 1
  behind : ∀ ls, Along (threadStep env) NoneLeft w ls →
  ∀ (evt : BmDfuEvent) (rest : List BmDfuEvent),
    (ls.foldl (threadStep env) w).queue = evt :: rest → evt.owns ptr = true →
      (consume env evt ((ls.foldl (threadStep env) w).withQueue rest)).frees ptr = 0 ∧
        (threadStep env (ls.foldl (threadStep env) w) (.act .turn)).frees ptr = 1
  freed : ∀ ls, Along (threadStep env) NoneLeft w ls → w.queue.length ≤ ls.count (.act .turn) →
    (ls.foldl (threadStep env) w).frees ptr = 1

/-- A buffer with one owner, or freed once, is freed once in every run. -/
theorem Held.freedOnce {env : Env} {ptr : Nat} {w : World} (h : Held ptr 1 w) :
    FreedOnce env ptr w := by
  refine ⟨fun ls hls => (h.run hls).balance, fun ls hls evt rest hq howns => ?_,
    fun ls hls hturns => ?_⟩
  · have hheld := h.run hls
    have hpos : 0 < (ls.foldl (threadStep env) w).owned ptr := by
      rw [World.owned, hq, List.countP_cons, howns]
      exact Nat.succ_pos _
    have hsum := hheld.balance
    obtain ⟨hconsume, hfrees, -⟩ := turn_frees env hheld.settled hq
      fun halloc => absurd halloc.1 (Nat.not_lt.mpr hheld.allocated)
    rw [howns, if_pos rfl] at hfrees
    refine ⟨?_, hfrees.trans ?_⟩ <;> omega
  · have hnone := owned_after_turns h (n := w.queue.length) (by simp) hls hturns
    have hsum := (h.run hls).balance
    omega

/-- The frame is rejected, or its type is known. -/
def Disposed (env : Env) (w : World) (bytes : List UInt8) : Prop :=
  w.core.selfNodeId ≠ dstNodeId env.beyond bytes ∨
  validPacket (srcNodeId env.beyond bytes) w = false ∨
    frameEvent (frameType env.beyond bytes) ≠ none

/-- What `bm_dfu_process_message` makes of a new buffer. -/
theorem processMessage_balance (env : Env) {w : World} {buf : BmDfuBuf}
    (h : w.frees buf.ptr + w.owned buf.ptr = 0) :
    (bmDfuProcessMessage env buf w).frees buf.ptr +
    (bmDfuProcessMessage env buf w).owned buf.ptr = 1 ↔
      Disposed env w buf.bytes := by
  have hfreed : ∀ v : World, v.frees buf.ptr + v.owned buf.ptr = 0 →
      (bmFree buf.ptr v).frees buf.ptr + (bmFree buf.ptr v).owned buf.ptr = 1 := by
    intro v hv
    have howned : (bmFree buf.ptr v).owned buf.ptr = v.owned buf.ptr := rfl
    rw [frees_bmFree, if_pos rfl, howned]
    omega
  unfold bmDfuProcessMessage Disposed
  dsimp only
  split
  next hdst => exact iff_of_true (hfreed w h) (.inl hdst)
  next hdst =>
    split
    next hsrc => exact iff_of_true (hfreed w h) (.inr (.inl (Bool.not_eq_true _ ▸ hsrc)))
    next hsrc =>
      split
      next type htype =>
        refine iff_of_true ?_ (.inr (.inr (by rw [htype]; exact Option.some_ne_none type)))
        unfold bmQueueSend
        split
        · rw [if_neg (not_not.mpr rfl)]
          have hfrees : (w.withQueue (w.queue ++ [{ type := type, buf := some buf }])).frees
            buf.ptr =
              w.frees buf.ptr := frees_of_log rfl
          have howned : (w.withQueue (w.queue ++ [{ type := type, buf := some buf }])).owned
            buf.ptr =
              w.owned buf.ptr + 1 := by
            simp [World.owned, List.countP_append, BmDfuEvent.owns]
          rw [hfrees, howned]
          omega
        · exact hfreed w h
      next htype =>
        rw [h]
        refine iff_of_false Nat.zero_ne_one ?_
        rintro (hne | hsrc' | hne)
        · exact hdst hne
        · rw [hsrc'] at hsrc
          exact hsrc Bool.false_ne_true
        · exact hne htype

/-- In every run in which no wait finds a buffer left over, the buffer of a received frame is freed
exactly once if and only if the frame is rejected or its type is known. -/
theorem buffer_freed_once_iff (env : Env) (self : UInt64) (info : RebootClientUpdateInfo)
    (flash : Nat → UInt8)
    (ls : List ThreadStep) (hls : Along (threadStep env) NoneLeft (bmDfuInit self info flash) ls)
    (bytes : List UInt8) :
    let w := ls.foldl (threadStep env) (bmDfuInit self info flash)
    let w₁ := (bmMalloc env w).2
    let buf : BmDfuBuf := { ptr := w₁.log.length, bytes := bytes }
    (bmMalloc env w).1 = true →
      (FreedOnce env buf.ptr (bmDfuProcessMessage env buf w₁) ↔ Disposed env w₁ bytes) := by
  intro w w₁ buf _
  obtain ⟨hsettled, hfresh⟩ := run_fresh hls buf.ptr
  have hzero : w₁.frees buf.ptr + w₁.owned buf.ptr = 0 := by
    have hfrees : w₁.frees buf.ptr = w.frees buf.ptr := frees_emit rfl w
    rw [hfrees]
    exact hfresh (Nat.lt_succ_self _)
  have houtside := outside_processMessage env buf w₁
  have hsettled' : Settled (bmDfuProcessMessage env buf w₁) := by
    unfold Settled
    rw [houtside.pendingStateChange, houtside.currentState, houtside.newState]
    exact hsettled
  rw [← processMessage_balance env hzero]
  constructor
  · exact fun hfreed => hfreed.once [] trivial
  · exact fun hbalance => Held.freedOnce ⟨hsettled', houtside.log.length_le, hbalance⟩

/-- A Start frame for node 7 in Idle. -/
theorem buffer_freed_once_start :
    let env := Env.steady 1 4096 []
    let w := [ThreadStep.act .turn, .act .turn].foldl (threadStep env)
      (bmDfuInit 7 .zero fun _ => 0xFF)
    let bytes := startFrame 9 7 ⟨1, 1, 0, 0, 0, 0, 2⟩
    FreedOnce env 1 (bmDfuProcessMessage env ⟨1, bytes, none, 0⟩ (bmMalloc env w).2) :=
  (buffer_freed_once_iff (Env.steady 1 4096 []) 7 .zero (fun _ => 0xFF) [.act .turn, .act .turn]
    (by decide +kernel) (startFrame 9 7 ⟨1, 1, 0, 0, 0, 0, 2⟩) rfl).mpr (.inr (.inr (by decide)))

/-- A frame of the unknown type 0xDA for node 7 in Idle is never freed; a Heartbeat frame is freed
behind its event, and again when the next wait of the event thread ends without an event. -/
theorem buffers_not_freed_once :
    let env := Env.steady 1 4096 []
    let w := [ThreadStep.act .turn, .act .turn].foldl (threadStep env)
      (bmDfuInit 7 .zero fun _ => 0xFF)
    let unknown := bmDfuProcessMessage env ⟨1, frameHeader 0xDA 9 7, none, 0⟩ (bmMalloc env w).2
    let heartbeat :=
      bmDfuProcessMessage env ⟨1, frameHeader bcmpDFUHeartbeatMessage 9 7, none, 0⟩
      (bmMalloc env w).2
    (bmMalloc env w).1 = true ∧
    (unknown.queue = [] ∧ unknown.frees 1 = 0 ∧ ¬ FreedOnce env 1 unknown) ∧
      ([ThreadStep.act .turn, .timeout].foldl (threadStep env) heartbeat).frees 1 = 2 :=
  ⟨rfl, ⟨by decide +kernel, by decide +kernel, fun h =>
  absurd (h.once [] trivial) (by decide +kernel)⟩,
    by decide +kernel⟩

end BmCore.Dfu
