import BmCore.Dfu.Intake
import BmCore.Library.Flash
import BmCore.Library.Runs

/-!
# Writes to the flash slot

The client erases the whole slot when it takes a Start frame in Idle and then writes it front to
back. A Start frame repeated in Receiving starts again at the first byte without another erase,
and the length of the payloads is not compared with the size of the slot.
-/
namespace BmCore.Dfu
open Library

/-- The flash operation of a call. An erase that fails erases nothing; a write that fails may
have touched its range. -/
def Effect.flashOp : Effect → Option FlashOp
  | .flashAreaErase off len r => if r = .ok then some (.erase off len) else none
  | .flashAreaWrite off src _ => some (.write off src.length)
  | _ => none

/-- The flash operations made so far, latest first. -/
def World.flashOps (w : World) : List FlashOp := w.log.filterMap Effect.flashOp

theorem flashOps_emit (w : World) (e : Effect) :
    (w.emit e).flashOps = e.flashOp.toList ++ w.flashOps := by
  unfold World.flashOps
  rw [emit_log, List.filterMap_cons]
  cases e.flashOp <;> rfl

@[simp] theorem flashOps_withClient (w : World) (c : DfuClientCtx) :
    (w.withClient c).flashOps = w.flashOps := rfl

@[simp] theorem flashOps_withRebootInfo (w : World) (i : RebootClientUpdateInfo) :
    (w.withRebootInfo i).flashOps = w.flashOps := rfl

@[simp] theorem flashOps_withFlash (w : World) (f : Nat → UInt8) :
    (w.withFlash f).flashOps = w.flashOps := rfl

@[simp] theorem flashOps_setPending (s : BmDfuState) (w : World) :
    (bmDfuSetPendingStateChange s w).flashOps = w.flashOps := by
  simp [World.flashOps]

@[simp] theorem flashOps_clientError (env : Env) (err : BmDfuErr) (w : World) :
    (bmDfuClientTransitionToError env err w).flashOps = w.flashOps := by
  simp [World.flashOps, List.filterMap_cons, Effect.flashOp]

theorem flashOps_of_ofFlash {w u : World} (h : u.seen Effect.ofFlash = w.seen Effect.ofFlash) :
    u.flashOps = w.flashOps := by
  have hf : ∀ l : List Effect, (l.filter Effect.ofFlash).filterMap Effect.flashOp =
      l.filterMap Effect.flashOp := by
    intro l
    rw [List.filterMap_filter]
    congr 1
    funext e
    cases e <;> rfl
  have := congrArg (List.filterMap Effect.flashOp) h
  simpa only [World.seen, hf, World.flashOps] using this

/-- The rest of the slot is erased, and the page buffer fits into it. -/
structure Writable (env : Env) (w : World) : Prop where
  fresh : FreshFrom env.flashAreaSize.toNat w.flashOps w.client.imgFlashOffset
  fits : w.client.imgFlashOffset + w.client.imgPageByteCounter ≤ env.flashAreaSize.toNat
  counter : w.client.imgPageByteCounter < bmImgPageLength

variable {env : Env}

theorem Writable.congr {w u : World} (h : Writable env w) (hops : u.flashOps = w.flashOps)
    (hoff : u.client.imgFlashOffset = w.client.imgFlashOffset)
    (hcount : u.client.imgPageByteCounter = w.client.imgPageByteCounter) : Writable env u := by
  refine ⟨?_, ?_, ?_⟩
  · rw [hops, hoff]
    exact h.fresh
  · rw [hoff, hcount]
    exact h.fits
  · rw [hcount]
    exact h.counter

/-- What the client knows after a payload: the discipline holds, and it may go on writing unless
the payload could not be processed; even then there is nothing left to write. -/
structure PayloadDone (env : Env) (failed : Bool) (w : World) : Prop where
  disciplined : Disciplined env.flashAreaSize.toNat w.flashOps
  writable : failed = false → Writable env w
  rest : w.client.imgPageByteCounter = 0 ∨ Writable env w

/-- A full page goes to the front of the erased range. -/
theorem bmDfuWritePage_done {w : World}
    (hd : Disciplined env.flashAreaSize.toNat w.flashOps)
    (hf : FreshFrom env.flashAreaSize.toNat w.flashOps w.client.imgFlashOffset)
    (hle : w.client.imgFlashOffset + bmImgPageLength ≤ env.flashAreaSize.toNat) :
    (bmDfuWritePage env w).2.client.imgPageByteCounter = 0 ∧
    Disciplined env.flashAreaSize.toNat (bmDfuWritePage env w).2.flashOps ∧
      ((bmDfuWritePage env w).1 = .ok →
        (bmDfuWritePage env w).2.client.imgFlashOffset =
          w.client.imgFlashOffset + bmImgPageLength ∧
        FreshFrom env.flashAreaSize.toNat (bmDfuWritePage env w).2.flashOps
          (w.client.imgFlashOffset + bmImgPageLength)) := by
  have hsize : env.flashAreaSize.toNat < 2 ^ 32 := env.flashAreaSize.toNat_lt
  have hmod : (w.client.imgFlashOffset + bmImgPageLength) % 2 ^ 32 =
      w.client.imgFlashOffset + bmImgPageLength := Nat.mod_eq_of_lt (by omega)
  have hops : (bmDfuWritePage env w).2.flashOps =
      .write w.client.imgFlashOffset bmImgPageLength :: w.flashOps := by
    unfold bmDfuWritePage
    dsimp only
    split <;> simp [flashOps_emit, Effect.flashOp]
  refine ⟨?_, ?_, ?_⟩
  · unfold bmDfuWritePage
    dsimp only
    split <;> rfl
  · rw [hops]
    exact hd.write hf hle
  · intro hok
    refine ⟨?_, ?_⟩
    · unfold bmDfuWritePage at hok ⊢
      dsimp only at hok ⊢
      split
      next hne =>
        rw [if_pos hne] at hok
        exact absurd hok hne
      · simpa using hmod
    · rw [hops]
      exact hf.write _

/-- A payload that fits into the slot keeps the discipline. -/
theorem bmDfuProcessPayload_done {w : World} {buf : List UInt8} (h : Writable env w)
    (hd : Disciplined env.flashAreaSize.toNat w.flashOps)
    (hlen : buf.length ≤ bmDfuMaxChunkSize)
    (hfit : w.client.imgFlashOffset + w.client.imgPageByteCounter + buf.length ≤
      env.flashAreaSize.toNat) :
    PayloadDone env (bmDfuProcessPayload env buf w).1 (bmDfuProcessPayload env buf w).2 := by
  have hc := h.counter
  simp only [bmImgPageLength, bmDfuMaxChunkSize] at hc hlen
  unfold bmDfuProcessPayload
  by_cases h0 : buf.length = 0
  · rw [if_pos h0]
    exact ⟨hd, by simp, .inr h⟩
  by_cases hlt : bmImgPageLength > buf.length + w.client.imgPageByteCounter
  · -- nothing is written
    have hcount : (w.client.fillPage buf).imgPageByteCounter =
        w.client.imgPageByteCounter + buf.length := by
      simp only [bmImgPageLength] at hlt
      exact Nat.mod_eq_of_lt (by omega)
    have hne : ¬ (w.client.fillPage buf).imgPageByteCounter = bmImgPageLength := by omega
    have hw : Writable env (w.withClient (w.client.fillPage buf)) := by
      refine ⟨h.fresh, ?_, ?_⟩
      · show w.client.imgFlashOffset + (w.client.fillPage buf).imgPageByteCounter ≤ _
        omega
      · show (w.client.fillPage buf).imgPageByteCounter < _
        omega
    simp only [h0, if_false, hlt, if_true, withClient_client, hne]
    exact ⟨hd, fun _ => hw, .inr hw⟩
  · -- the page is completed and written
    simp only [bmImgPageLength] at hlt
    generalize hk : bmImgPageLength - w.client.imgPageByteCounter = k
    have hk' : w.client.imgPageByteCounter + k = 2048 := by
      simp only [bmImgPageLength] at hk
      omega
    have hfull : (w.client.fillPage (buf.take k)).imgPageByteCounter = bmImgPageLength := by
      simp only [DfuClientCtx.fillPage, List.length_take, bmImgPageLength]
      omega
    have hlt' : ¬ bmImgPageLength > buf.length + w.client.imgPageByteCounter := by
      simp only [bmImgPageLength]
      omega
    have hpage := bmDfuWritePage_done (w := w.withClient (w.client.fillPage (buf.take k))) hd
      h.fresh
      (by show w.client.imgFlashOffset + 2048 ≤ _; omega)
    simp only [h0, if_false, hlt', withClient_client, hfull, if_true]
    generalize bmDfuWritePage env (w.withClient (w.client.fillPage (buf.take k))) = r at hpage ⊢
    obtain ⟨hzero, hdis, hok⟩ := hpage
    split
    · exact ⟨hdis, by simp, .inl hzero⟩
    next hret =>
      obtain ⟨hoff, hfresh⟩ := hok (not_not.mp hret)
      have hoff' : r.2.client.imgFlashOffset = w.client.imgFlashOffset + 2048 := hoff
      have hcount : (r.2.client.fillPage (buf.drop k)).imgPageByteCounter = buf.length - k := by
        show (r.2.client.imgPageByteCounter + (buf.drop k).length) % 2 ^ 16 = _
        rw [hzero, List.length_drop]
        omega
      have hw : Writable env (r.2.withClient (r.2.client.fillPage (buf.drop k))) := by
        refine ⟨?_, ?_, ?_⟩
        · show FreshFrom _ r.2.flashOps r.2.client.imgFlashOffset
          rw [hoff']
          exact hfresh
        · show r.2.client.imgFlashOffset + (r.2.client.fillPage (buf.drop k)).imgPageByteCounter ≤ _
          omega
        · show (r.2.client.fillPage (buf.drop k)).imgPageByteCounter < 2048
          omega
      exact ⟨hdis, fun _ => hw, .inr hw⟩

/-- The rest of the page buffer goes to the front of the erased range. -/
theorem bmDfuProcessEnd_disciplined {w : World}
    (hd : Disciplined env.flashAreaSize.toNat w.flashOps)
    (hrest : w.client.imgPageByteCounter = 0 ∨ Writable env w) :
    Disciplined env.flashAreaSize.toNat (bmDfuProcessEnd env w).2.flashOps := by
  unfold bmDfuProcessEnd bmDfuWriteDirty bmDfuClientFlashAreaClose
  dsimp only
  by_cases h0 : w.client.imgPageByteCounter = 0
  · rw [if_neg (not_not.mpr h0)]
    simpa [flashOps_emit, Effect.flashOp] using hd
  · have hw := hrest.resolve_left h0
    have hwrite := hd.write hw.fresh hw.fits
    rw [if_pos h0]
    split <;> simpa [flashOps_emit, Effect.flashOp] using hwrite

/-! ## One step -/

/-- The condition under which the client keeps the discipline in a step: a Start frame restarts
the image only while no page has been written, and an accepted payload fits into the slot. -/
def FlashSafe (env : Env) (w : World) (evt : BmDfuEvent) : Prop :=
  w.core.currentState = .clientReceiving → env.timerStop w.log.length = .ok →
    (evt.type = .receivedUpdateRequest → w.client.imgFlashOffset = 0) ∧
    (evt.type = .imageChunk → ∀ buf ∈ evt.buf,
      payloadLength env.beyond buf.bytes ≤ bmDfuMaxChunkSize →
      w.client.imgFlashOffset + w.client.imgPageByteCounter +
        payloadLength env.beyond buf.bytes ≤ env.flashAreaSize.toNat)

instance (env : Env) (w : World) (evt : BmDfuEvent) : Decidable (FlashSafe env w evt) :=
  inferInstanceAs (Decidable (_ → _ → (_ → _) ∧ (_ → ∀ buf ∈ evt.buf, _ → _)))

/-- What is known between steps. -/
structure FlashInv (env : Env) (w : World) : Prop where
  settled : Settled w
  disciplined : Disciplined env.flashAreaSize.toNat w.flashOps
  writable : w.core.currentState = .clientReceiving → Writable env w

/-- What the run function of the Receiving state leaves. -/
structure Kept (env : Env) (u : World) : Prop where
  disciplined : Disciplined env.flashAreaSize.toNat u.flashOps
  writable : u.core.pendingStateChange = false → Writable env u

theorem Kept.timerErrCheck {call : BmErr × World}
    (hd : Disciplined env.flashAreaSize.toNat call.2.flashOps)
    (hw : call.2.core.pendingStateChange = false → Writable env call.2) :
    Kept env (clientTimerErrCheck env call).2 := by
  have hops := flashOps_of_ofFlash (clientTimerErrCheck_ofFlash env call)
  refine ⟨by rw [hops]; exact hd, ?_⟩
  unfold clientTimerErrCheck
  split
  · simp
  · exact hw

theorem clientNextChunk_kept {w : World} {failed : Bool} (h : PayloadDone env failed w)
    (hpend : w.core.pendingStateChange = false → failed = false) :
    Kept env (clientNextChunk env w).2 := by
  have hrest : ∀ c : DfuClientCtx, c.imgFlashOffset = w.client.imgFlashOffset →
      c.imgPageByteCounter = w.client.imgPageByteCounter →
      c.imgPageByteCounter = 0 ∨ Writable env (w.withClient c) := by
    intro c hoff hcount
    rcases h.rest with h0 | hw
    · exact .inl (hcount.trans h0)
    · exact .inr (hw.congr rfl hoff hcount)
  unfold clientNextChunk
  dsimp only
  split
  · refine .timerErrCheck (by simpa [flashOps_emit, Effect.flashOp] using h.disciplined) ?_
    intro hp
    refine (h.writable (hpend hp)).congr ?_ rfl rfl
    simp [flashOps_emit, Effect.flashOp]
  · have hend := bmDfuProcessEnd_disciplined (w := w.withClient { w.client with
      currentChunk := (w.client.currentChunk + 1) % 2 ^ 16, chunkRetryNum := 0 })
      h.disciplined (hrest _ rfl rfl)
    split
    · refine ⟨?_, by simp⟩
      rw [flashOps_clientError]
      exact hend
    · refine ⟨?_, by simp⟩
      rw [flashOps_setPending]
      exact hend

theorem clientAcceptChunk_kept {w : World} {payload : List UInt8} (h : Writable env w)
    (hd : Disciplined env.flashAreaSize.toNat w.flashOps)
    (hlen : payload.length ≤ bmDfuMaxChunkSize)
    (hfit : w.client.imgFlashOffset + w.client.imgPageByteCounter + payload.length ≤
      env.flashAreaSize.toNat) : Kept env (clientAcceptChunk env payload w).2 := by
  unfold clientAcceptChunk
  dsimp only
  generalize hv : w.withClient { w.client with
    chunkLength := payload.length
    runningCrc16 := crc16Ccitt w.client.runningCrc16 payload } = v
  have hdone : PayloadDone env (bmDfuProcessPayload env payload v).1
      (bmDfuProcessPayload env payload v).2 := by
    subst hv
    exact bmDfuProcessPayload_done (h.congr rfl rfl rfl) hd hlen hfit
  split
  next hfail =>
    have hops := flashOps_clientError env .bmFrame (bmDfuProcessPayload env payload v).2
    have hfailed : PayloadDone env true
        (bmDfuClientTransitionToError env .bmFrame (bmDfuProcessPayload env payload v).2) := by
      refine ⟨by rw [hops]; exact hdone.disciplined, by simp, ?_⟩
      rcases hdone.rest with h0 | hw
      · exact .inl (by simpa using h0)
      · exact .inr (hw.congr hops (by simp) (by simp))
    exact clientNextChunk_kept hfailed (by simp)
  next hok =>
    rw [Bool.not_eq_true] at hok
    rw [hok] at hdone
    exact clientNextChunk_kept hdone (fun _ => rfl)

theorem receivingRun_kept {w : World} (h : Writable env w)
    (hd : Disciplined env.flashAreaSize.toNat w.flashOps)
    (hs : w.core.currentState = .clientReceiving) (hsafe : FlashSafe env w w.core.currentEvent) :
    Kept env (sClientReceivingRun env w).2 := by
  have herr : ∀ (err : BmDfuErr) (u : World), u.flashOps = w.flashOps →
      Kept env (bmDfuClientTransitionToError env err u) := by
    intro err u hu
    refine ⟨?_, by simp⟩
    rw [flashOps_clientError, hu]
    exact hd
  rcases he : w.core.currentEvent with ⟨type, buf⟩
  by_cases hacts : actsInReceiving w.core.currentEvent = false
  · rw [receivingRun_ignored hacts]
    exact ⟨hd, fun _ => h⟩
  rw [he] at hacts
  rw [he] at hsafe
  cases type with
  | imageChunk =>
    cases buf with
    | none => simp [actsInReceiving] at hacts
    | some buf =>
      rw [receivingRun_imageChunk he]
      split
      · exact ⟨hd, fun _ => h⟩
      next hlen =>
        split
        · exact herr _ _ (by simp [flashOps_emit, Effect.flashOp])
        next hstop =>
          have hfit := (hsafe hs (not_not.mp hstop)).2 rfl buf rfl (by omega)
          refine clientAcceptChunk_kept (h.congr ?_ rfl rfl) ?_ ?_ ?_
          · simp [flashOps_emit, Effect.flashOp]
          · simpa [flashOps_emit, Effect.flashOp] using hd
          · rw [payloadBuf, window_length]
            omega
          · rw [payloadBuf, window_length]
            exact hfit
  | chunkTimeout =>
    rw [receivingRun_chunkTimeout he]
    unfold clientChunkTimeout
    dsimp only
    split
    · exact herr _ _ (by simp [flashOps_emit, Effect.flashOp])
    · refine .timerErrCheck (by simpa [flashOps_emit, Effect.flashOp] using hd) fun _ => ?_
      exact h.congr (by simp [flashOps_emit, Effect.flashOp]) rfl rfl
  | receivedUpdateRequest =>
    rw [receivingRun_updateRequest he]
    split
    · exact herr _ _ (by simp [flashOps_emit, Effect.flashOp])
    next hstop =>
      have hzero := (hsafe hs (not_not.mp hstop)).1 rfl
      unfold clientResync
      refine .timerErrCheck (by simpa [flashOps_emit, Effect.flashOp] using hd) fun _ => ?_
      refine ⟨?_, ?_, ?_⟩
      · have hf := h.fresh
        rw [hzero] at hf
        simpa [flashOps_emit, Effect.flashOp, DfuClientCtx.restart] using hf
      · simp [DfuClientCtx.restart]
      · simp [DfuClientCtx.restart, bmImgPageLength]
  | heartbeat =>
    rw [receivingRun_heartbeat he]
    refine .timerErrCheck (by simpa [flashOps_emit, Effect.flashOp] using hd) fun _ => ?_
    exact h.congr (by simp [flashOps_emit, Effect.flashOp]) rfl rfl
  | _ => simp [actsInReceiving] at hacts

/-- A Start frame in Idle makes at most one flash operation, the erase of the whole slot. -/
theorem processUpdateRequest_flashOps (env : Env) (w : World) :
    (bmDfuClientProcessUpdateRequest env w).flashOps = w.flashOps ∨
      (bmDfuClientProcessUpdateRequest env w).flashOps =
        .erase 0 env.flashAreaSize.toNat :: w.flashOps := by
  have hdiv : ∀ (info : BmDfuImgInfo) (c : DfuClientCtx),
      (recordDivision info (w.withClient c)).flashOps = w.flashOps := by
    intro info c
    unfold recordDivision
    split <;> simp [flashOps_emit, Effect.flashOp]
  unfold bmDfuClientProcessUpdateRequest clientTakeStart clientPrepareSlot
  dsimp only
  split
  · exact .inl rfl
  · split
    · split
      · exact .inl (by simp [flashOps_emit, Effect.flashOp])
      · split
        · exact .inl (by simp [flashOps_emit, Effect.flashOp, hdiv])
        · split
          · split
            next hfail => exact .inl (by simp_all [flashOps_emit, Effect.flashOp])
            next hok => exact .inr (by simp_all [flashOps_emit, Effect.flashOp])
          · exact .inl (by simp [flashOps_emit, Effect.flashOp, hdiv])
    · exact .inl (by simp [flashOps_emit, Effect.flashOp])

/-- The discipline survives the run function of any state. -/
theorem afterRun_disciplined {w : World} (h : FlashInv env w) {evt : BmDfuEvent}
    (hsafe : FlashSafe env w evt) :
    Disciplined env.flashAreaSize.toNat (w.afterRun env evt).flashOps := by
  by_cases hs : w.core.currentState ∈ [.idle, .clientReceiving]
  · simp only [List.mem_cons, List.not_mem_nil, or_false] at hs
    rcases hs with hs | hs
    · simp only [World.afterRun, hs, dfuStates]
      unfold sIdleRun bmDfuHostSetParams
      dsimp only
      split
      · rcases processUpdateRequest_flashOps env (w.withEvent evt) with he | he <;> rw [he] <;>
          exact h.disciplined
      · rw [flashOps_setPending]
        exact h.disciplined
      · exact h.disciplined
    · simp only [World.afterRun, hs, dfuStates]
      exact (receivingRun_kept (w := w.withEvent evt) ((h.writable hs).congr rfl rfl rfl)
        h.disciplined hs hsafe).disciplined
  · have hops : (w.afterRun env evt).flashOps = w.flashOps :=
      flashOps_of_ofFlash (run_ofFlash env (w.withEvent evt) hs)
    rw [hops]
    exact h.disciplined

theorem FlashInv.step {w : World} (h : FlashInv env w) {evt : BmDfuEvent}
    (hsafe : FlashSafe env w evt) : FlashInv env (consume env evt w) := by
  have hd := afterRun_disciplined h hsafe
  refine ⟨consume_settled env evt h.settled, ?_, ?_⟩
  · rw [flashOps_of_ofFlash (consume_ofFlash env evt h.settled)]
    exact hd
  · obtain ⟨hs, ⟨hp, hu⟩ | ⟨hp, hnew, hu⟩⟩ := consume_cases env evt h.settled
    · intro hr
      rw [hu, hs] at hr
      rw [hu]
      have hkept := receivingRun_kept (w := w.withEvent evt) ((h.writable hr).congr rfl rfl rfl)
        h.disciplined hr hsafe
      have hafter : w.afterRun env evt = (sClientReceivingRun env (w.withEvent evt)).2 := by
        simp [World.afterRun, hr, dfuStates]
      rw [hafter] at hp ⊢
      exact hkept.writable hp
    · intro hr
      rw [hu, moved_currentState] at hr
      rw [hr] at hnew
      have hidle := eq_idle_of_receiving hnew
      have hafter : w.afterRun env evt = (sIdleRun env (w.withEvent evt)).2 := by
        simp [World.afterRun, hidle, dfuStates]
      rw [hafter] at hp hr
      obtain ⟨buf, -, -, htaken⟩ := idleRun_toReceiving (w := w.withEvent evt)
        (h.settled.pending_eq_false hidle (by decide)) hp hr
      obtain ⟨r, hlog⟩ := htaken.log
      have hops : (sIdleRun env (w.withEvent evt)).2.flashOps =
          .erase 0 env.flashAreaSize.toNat ::
            (recordDivision (imgInfo env.beyond buf.bytes) (w.withEvent evt)).flashOps := by
        simp [World.flashOps, hlog, List.filterMap_cons, Effect.flashOp]
      have hmoved : consume env evt w = (sClientReceivingEntry env
          ((w.afterRun env evt).entering .clientReceiving)).2 := by
        rw [hu, moved_eq_entry env (hs.trans hidle) (by decide) (hafter ▸ hr)]
        rfl
      have hfresh := freshFrom_erase env.flashAreaSize.toNat
        (recordDivision (imgInfo env.beyond buf.bytes) (w.withEvent evt)).flashOps
      rw [← hops, ← hafter] at hfresh
      rw [hmoved]
      refine ⟨?_, ?_, ?_⟩
      · have : (sClientReceivingEntry env ((w.afterRun env evt).entering
            .clientReceiving)).2.flashOps = (w.afterRun env evt).flashOps := by
          simp [sClientReceivingEntry, flashOps_emit, Effect.flashOp]
          rfl
        rw [this]
        exact hfresh
      · exact Nat.zero_le _
      · show 0 < bmImgPageLength
        decide

/-- In every run whose steps are `FlashSafe`, every write of the client stays inside the slot and
hits only bytes that are erased and not written since. -/
theorem flash_disciplined (env : Env) (self : UInt64) (info : RebootClientUpdateInfo)
    (flash : Nat → UInt8) (evts : List BmDfuEvent)
    (hsafe : Along (fun w evt => consume env evt w) (FlashSafe env) (bmDfuInit self info flash)
      evts) :
    Disciplined env.flashAreaSize.toNat
      (evts.foldl (fun w evt => consume env evt w) (bmDfuInit self info flash)).flashOps := by
  have hinit : FlashInv env (bmDfuInit self info flash) :=
    ⟨(fun h => by cases h), trivial, (fun h => by cases h)⟩
  exact (foldl_invariant (fun w evt h hs => h.step hs) hinit hsafe).disciplined

theorem flash_disciplined_oneByte :
    let env := Env.steady 1 4096 []
    let w := oneByteUpdate.foldl (fun w evt => consume env evt w) (bmDfuInit 7 .zero fun _ => 0)
    w.flashOps = [.write 0 1, .erase 0 4096] ∧ Disciplined env.flashAreaSize.toNat w.flashOps :=
  ⟨by decide +kernel,
    flash_disciplined (Env.steady 1 4096 []) 7 .zero (fun _ => 0) oneByteUpdate (by decide +kernel)⟩

/-- A host that offers four chunks and repeats its Start frame after two of them. -/
def repeatedStart : List BmDfuEvent :=
  let start := BmDfuEvent.ofFrame .receivedUpdateRequest
    (startFrame 9 7 ⟨4096, 1024, 0, 0, 0, 0, 2⟩)
  let chunk := BmDfuEvent.ofFrame .imageChunk (payloadFrame 9 7 1024 (List.replicate 1024 0))
  [{ type := .initSuccess }, start, chunk, chunk, start, chunk, chunk]

theorem repeatedStart_not_disciplined :
    ¬ Disciplined (Env.steady 1 8192 []).flashAreaSize.toNat
      (repeatedStart.foldl (fun w evt => consume (Env.steady 1 8192 []) evt w)
        (bmDfuInit 7 .zero fun _ => 0)).flashOps := by
  decide +kernel

end BmCore.Dfu
