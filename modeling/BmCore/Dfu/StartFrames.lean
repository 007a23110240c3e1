import BmCore.Dfu.Parameters
import Mathlib.Algebra.Order.Floor.Div

/-!
# The arithmetic of a Start frame

A Start frame names the size of an image in 32 bits and the size of its chunks in 16; the client
counts the chunks in 16 bits. A chunk size of zero is divided by, and a count that does not fit is
cut off: the update is acknowledged all the same. -/
namespace BmCore.Dfu
open Library

def Effect.isDivisionByZero : Effect → Bool
  | .divisionByZero => true
  | _ => false

section Counting
variable {info : BmDfuImgInfo}

/-- The chunk count is the number of chunks, as far as it fits. -/
theorem numChunksOf_eq_mod (h : info.chunkSize ≠ 0) :
    numChunksOf info = (info.imageSize.toNat ⌈/⌉ info.chunkSize.toNat) % 2 ^ 16 := by
  have hpos : 0 < info.chunkSize.toNat := Nat.pos_of_ne_zero fun hzero =>
    h (UInt16.toNat_inj.mp hzero)
  rw [numChunksOf, Nat.ceilDiv_eq_add_pred_div]
  generalize info.imageSize.toNat = size
  generalize info.chunkSize.toNat = chunk at *
  have hdiv := Nat.div_add_mod size chunk
  have hmod := Nat.mod_lt size hpos
  have hround : (size + chunk - 1) / chunk = if size % chunk ≠ 0 then size / chunk +
      1 else size / chunk := by
    split
    next hne =>
      refine Nat.div_eq_of_lt_le ?_ ?_
      · rw [Nat.add_mul, Nat.mul_comm (size / chunk)]
        omega
      · rw [Nat.add_mul, Nat.add_mul, Nat.mul_comm (size / chunk)]
        omega
    next heq =>
      refine Nat.div_eq_of_lt_le ?_ ?_
      · rw [Nat.mul_comm (size / chunk)]
        omega
      · rw [Nat.add_mul, Nat.mul_comm (size / chunk)]
        omega
  rw [hround]

end Counting

section Calls
variable {env : Env} {w : World} {buf : BmDfuBuf}

/-- The image size is divided by zero exactly when the offer is wanted and names no chunk size. -/
theorem processUpdateRequest_divisions (hbuf : w.core.currentEvent.buf = some buf) :
    let info := imgInfo env.beyond buf.bytes
    (bmDfuClientProcessUpdateRequest env w).seen Effect.isDivisionByZero =
      w.seen Effect.isDivisionByZero ↔
      (wantsUpdate env info = true → info.chunkSize ≠ 0) := by
  dsimp only
  have hrecord : ∀ c : DfuClientCtx,
      (recordDivision (imgInfo env.beyond buf.bytes) (w.withClient c)).log.filter
      Effect.isDivisionByZero =
        w.log.filter Effect.isDivisionByZero ↔ (imgInfo env.beyond buf.bytes).chunkSize ≠ 0 := by
    intro c
    rw [recordDivision_log]
    split
    next hzero =>
      refine iff_of_false (fun hsame => ?_) (not_not.mpr hzero)
      rw [List.filter_cons_of_pos rfl] at hsame
      exact List.cons_ne_self _ _ hsame
    next hne => exact iff_of_true rfl hne
  unfold bmDfuClientProcessUpdateRequest clientTakeStart clientPrepareSlot World.seen
  simp only [bmDfuGetCurrentEvent, hbuf]
  split
  next hwants =>
    rw [forall_prop_of_true hwants]
    split
    next hlarge =>
      refine iff_of_true (by simp [Effect.isDivisionByZero]) fun hzero => ?_
      rw [hzero] at hlarge
      exact absurd hlarge (by decide)
    · rw [← hrecord { w.client with hostNodeId := srcNodeId env.beyond buf.bytes }]
      split
      · simp [Effect.isDivisionByZero]
      · split
        · split <;> simp [Effect.isDivisionByZero]
        · simp [Effect.isDivisionByZero]
  next hnot =>
    exact iff_of_true (by simp [Effect.isDivisionByZero]) fun hwants => absurd hwants hnot

/-- An offer that is not taken is not acknowledged. -/
theorem processUpdateRequest_unacked (hbuf : w.core.currentEvent.buf = some buf)
    (h : ¬ AcceptsStart env w buf) :
    (bmDfuClientProcessUpdateRequest env w).seen Effect.isSuccessAck =
      w.seen Effect.isSuccessAck := by
  have hrecord : ∀ c : DfuClientCtx,
      (recordDivision (imgInfo env.beyond buf.bytes) (w.withClient c)).log.filter
      Effect.isSuccessAck =
        w.log.filter Effect.isSuccessAck := by
    intro c
    rw [recordDivision_log]
    split <;> rfl
  have habort : (bcmpDFUAbortMessage == bcmpDFUAckMessage) = false := by decide
  unfold bmDfuClientProcessUpdateRequest clientTakeStart clientPrepareSlot World.seen
  simp only [bmDfuGetCurrentEvent, hbuf]
  split
  next hwants =>
    split
    · simp [habort]
    next hchunk =>
      split
      · simp [hrecord]
      next hopen =>
        split
        next hsize =>
          split
          · simp [hrecord]
          next herase =>
            -- every check passed, so the frame was taken
            refine absurd ⟨hwants, by omega, ?_, hsize, ?_⟩ h
            · simpa [recordDivision_log_withClient] using hopen
            · simpa [recordDivision_log_withClient] using herase
        · simp [hrecord]
  · simp

/-- An offer that is taken is acknowledged. -/
theorem processUpdateRequest_acked (hbuf : w.core.currentEvent.buf = some buf)
    (h : AcceptsStart env w buf) :
    (bmDfuClientProcessUpdateRequest env w).seen Effect.isSuccessAck ≠
      w.seen Effect.isSuccessAck := by
  obtain ⟨r, hlog⟩ := (processUpdateRequest_taken hbuf h).log
  have hrecord : (recordDivision (imgInfo env.beyond buf.bytes) w).log.filter Effect.isSuccessAck =
      w.log.filter Effect.isSuccessAck := by
    rw [recordDivision_log]
    split <;> rfl
  have hack :
    (Effect.tx (resultFrame bcmpDFUAckMessage w.core.selfNodeId (srcNodeId env.beyond buf.bytes) 1
      BmDfuErr.none) r).isSuccessAck = true := isSuccessAck_result ..
  intro hsame
  rw [World.seen, World.seen, hlog, List.filter_cons_of_pos hack,
    List.filter_cons_of_neg Bool.false_ne_true, List.filter_cons_of_neg Bool.false_ne_true,
    hrecord] at hsame
  exact List.cons_ne_self _ _ hsame

end Calls

/-- What a client may rely on once it has processed the Start frame in `buf`. -/
structure StartArithmetic (env : Env) (buf : BmDfuBuf) (w u : World) : Prop where
  noDivision : u.seen Effect.isDivisionByZero = w.seen Effect.isDivisionByZero
  chunkSize : u.seen Effect.isSuccessAck ≠ w.seen Effect.isSuccessAck →
    1 ≤ (imgInfo env.beyond buf.bytes).chunkSize.toNat ∧
      (imgInfo env.beyond buf.bytes).chunkSize.toNat ≤ bmDfuMaxChunkSize
  numChunks : u.seen Effect.isSuccessAck ≠ w.seen Effect.isSuccessAck →
    u.client.numChunks =
      (imgInfo env.beyond buf.bytes).imageSize.toNat ⌈/⌉
      (imgInfo env.beyond buf.bytes).chunkSize.toNat
  fits : u.seen Effect.isSuccessAck ≠ w.seen Effect.isSuccessAck →
    (imgInfo env.beyond buf.bytes).imageSize.toNat ≤
      u.client.numChunks * (imgInfo env.beyond buf.bytes).chunkSize.toNat

/-- The arithmetic is right exactly when a wanted offer names a chunk size, and an offer that is
taken has no more chunks than the counter can hold. -/
theorem start_arithmetic_iff (env : Env) (w : World) (buf : BmDfuBuf)
    (hbuf : w.core.currentEvent.buf = some buf) :
    let info := imgInfo env.beyond buf.bytes
    StartArithmetic env buf w (bmDfuClientProcessUpdateRequest env w) ↔
      (wantsUpdate env info = true → info.chunkSize ≠ 0) ∧
        (AcceptsStart env w buf → info.imageSize.toNat ⌈/⌉ info.chunkSize.toNat < 2 ^ 16) := by
  intro info
  constructor
  · intro h
    have hchunk := (processUpdateRequest_divisions hbuf).mp h.noDivision
    refine ⟨hchunk, fun haccepts => ?_⟩
    have hcount := h.numChunks (processUpdateRequest_acked hbuf haccepts)
    rw [(processUpdateRequest_taken hbuf haccepts).client] at hcount
    have hmod : numChunksOf info = _ := numChunksOf_eq_mod (hchunk haccepts.1)
    have hlt := Nat.mod_lt (info.imageSize.toNat ⌈/⌉ info.chunkSize.toNat) (by decide : 0 < 2 ^ 16)
    rw [← hmod] at hlt
    exact hcount ▸ hlt
  · rintro ⟨hchunk, hfits⟩
    have htaken : (bmDfuClientProcessUpdateRequest env w).seen Effect.isSuccessAck ≠
        w.seen Effect.isSuccessAck → AcceptsStart env w buf := by
      intro hacked
      by_contra hnot
      exact hacked (processUpdateRequest_unacked hbuf hnot)
    have hpos : AcceptsStart env w buf → 1 ≤ info.chunkSize.toNat := by
      intro haccepts
      exact Nat.pos_of_ne_zero fun hzero => hchunk haccepts.1 (UInt16.toNat_inj.mp hzero)
    have hcount : AcceptsStart env w buf →
      (bmDfuClientProcessUpdateRequest env w).client.numChunks =
        info.imageSize.toNat ⌈/⌉ info.chunkSize.toNat := by
      intro haccepts
      rw [(processUpdateRequest_taken hbuf haccepts).client]
      exact (numChunksOf_eq_mod (hchunk haccepts.1)).trans (Nat.mod_eq_of_lt (hfits haccepts))
    refine ⟨(processUpdateRequest_divisions hbuf).mpr hchunk, fun hacked => ?_, fun hacked => ?_,
      fun hacked => ?_⟩
    · exact ⟨hpos (htaken hacked), (htaken hacked).2.1⟩
    · exact hcount (htaken hacked)
    · rw [hcount (htaken hacked), Nat.mul_comm]
      exact le_smul_ceilDiv (b := info.imageSize.toNat) (Nat.lt_of_succ_le (hpos (htaken hacked)))

/-- A node in Idle that takes up a Start frame about `info`. -/
def startReceived (info : BmDfuImgInfo) : World :=
  (bmDfuInit 7 .zero fun _ => 0xFF).withCore
    { (bmDfuInit 7 .zero fun _ => 0xFF).core with
      currentState := .idle
      currentEvent := .ofFrame .receivedUpdateRequest (startFrame 9 7 info) }

/-- An image of 2100 bytes in chunks of 1024. -/
theorem start_arithmetic_threeChunks :
    StartArithmetic (.steady 1 4096 []) ⟨0, startFrame 9 7 ⟨2100, 1024, 0, 0, 0, 0, 2⟩, none, 0⟩
      (startReceived ⟨2100, 1024, 0, 0, 0, 0, 2⟩)
      (bmDfuClientProcessUpdateRequest (.steady 1 4096 [])
        (startReceived ⟨2100, 1024, 0, 0, 0, 0, 2⟩)) :=
  (start_arithmetic_iff (.steady 1 4096 []) (startReceived ⟨2100, 1024, 0, 0, 0, 0, 2⟩)
    ⟨0, startFrame 9 7 ⟨2100, 1024, 0, 0, 0, 0, 2⟩, none, 0⟩ rfl).mpr
    ⟨by decide +kernel, by decide +kernel⟩

/-- A wanted Start frame with the chunk size 0 is divided by; one of 65537 chunks of one byte is
acknowledged and counted as one chunk. -/
theorem start_arithmetic_fails :
    (∃ buf, (startReceived ⟨2100, 0, 0, 0, 0, 0, 2⟩).core.currentEvent.buf = some buf ∧
      ¬ StartArithmetic (.steady 1 4096 []) buf (startReceived ⟨2100, 0, 0, 0, 0, 0, 2⟩)
        (bmDfuClientProcessUpdateRequest (.steady 1 4096 [])
          (startReceived ⟨2100, 0, 0, 0, 0, 0, 2⟩))) ∧
      ∃ buf, (startReceived ⟨65537, 1, 0, 0, 0, 0, 2⟩).core.currentEvent.buf = some buf ∧
        ¬ StartArithmetic (.steady 1 131072 []) buf (startReceived ⟨65537, 1, 0, 0, 0, 0, 2⟩)
          (bmDfuClientProcessUpdateRequest (.steady 1 131072 [])
            (startReceived ⟨65537, 1, 0, 0, 0, 0, 2⟩)) :=
  ⟨⟨_, rfl, fun h => absurd h.noDivision (by decide +kernel)⟩,
    ⟨_, rfl, fun h => absurd (h.numChunks (by decide +kernel)) (by decide +kernel)⟩⟩

end BmCore.Dfu
