import BmCore.Dfu.Steps

/-!
# The page buffer and the flash

The client has taken a byte string when the flash up to the flash offset, followed by the filled
part of the page buffer, is that string. `bmDfuProcessPayload` appends a payload to it whatever
the alignment of the payload and the page, and `bmDfuProcessEnd` brings all of it to flash.
-/
namespace BmCore.Dfu
open Library

/-- Flash and page buffer together hold `acc`. -/
structure Paged (c : DfuClientCtx) (flash : Nat → UInt8) (acc : List UInt8) : Prop where
  bytes : peek flash 0 c.imgFlashOffset ++ peek c.imgPageBuf 0 c.imgPageByteCounter = acc
  counter : c.imgPageByteCounter < bmImgPageLength

theorem Paged.length {c : DfuClientCtx} {flash : Nat → UInt8} {acc : List UInt8}
    (h : Paged c flash acc) : c.imgFlashOffset + c.imgPageByteCounter = acc.length := by
  rw [← h.bytes]
  simp

/-- An image that starts from its first byte has taken nothing. -/
theorem Paged.restart (c : DfuClientCtx) (flash : Nat → UInt8) : Paged c.restart flash [] :=
  ⟨by simp [DfuClientCtx.restart], by simp [DfuClientCtx.restart, bmImgPageLength]⟩

/-! ## Frame conditions -/

/-- A client context without its page fields. -/
def DfuClientCtx.unpaged (c : DfuClientCtx) : DfuClientCtx :=
  { c with imgPageBuf := fun _ => 0, imgPageByteCounter := 0, imgFlashOffset := 0 }

/-- Everything but the page fields of the client, the flash and the log is as before. -/
structure SameButPages (w u : World) : Prop where
  core : u.core = w.core
  host : u.host = w.host
  rebootInfo : u.rebootInfo = w.rebootInfo
  queue : u.queue = w.queue
  unpaged : u.client.unpaged = w.client.unpaged
  log : w.log <:+ u.log

namespace SameButPages
variable {w u v : World}

theorem refl (w : World) : SameButPages w w := ⟨rfl, rfl, rfl, rfl, rfl, List.suffix_rfl⟩

theorem trans (h : SameButPages w u) (g : SameButPages u v) : SameButPages w v :=
  ⟨g.core.trans h.core, g.host.trans h.host, g.rebootInfo.trans h.rebootInfo,
    g.queue.trans h.queue, g.unpaged.trans h.unpaged, h.log.trans g.log⟩

theorem imageSize (h : SameButPages w u) : u.client.imageSize = w.client.imageSize :=
  show u.client.unpaged.imageSize = w.client.unpaged.imageSize from h.unpaged ▸ rfl
theorem numChunks (h : SameButPages w u) : u.client.numChunks = w.client.numChunks :=
  show u.client.unpaged.numChunks = w.client.unpaged.numChunks from h.unpaged ▸ rfl
theorem crc16 (h : SameButPages w u) : u.client.crc16 = w.client.crc16 :=
  show u.client.unpaged.crc16 = w.client.unpaged.crc16 from h.unpaged ▸ rfl
theorem runningCrc16 (h : SameButPages w u) : u.client.runningCrc16 = w.client.runningCrc16 :=
  show u.client.unpaged.runningCrc16 = w.client.unpaged.runningCrc16 from h.unpaged ▸ rfl
theorem currentChunk (h : SameButPages w u) : u.client.currentChunk = w.client.currentChunk :=
  show u.client.unpaged.currentChunk = w.client.unpaged.currentChunk from h.unpaged ▸ rfl
theorem hostNodeId (h : SameButPages w u) : u.client.hostNodeId = w.client.hostNodeId :=
  show u.client.unpaged.hostNodeId = w.client.unpaged.hostNodeId from h.unpaged ▸ rfl

end SameButPages

theorem fillPage_frame (bs : List UInt8) (w : World) :
    SameButPages w (w.withClient (w.client.fillPage bs)) :=
  ⟨rfl, rfl, rfl, rfl, rfl, List.suffix_rfl⟩

theorem bmDfuWritePage_frame (env : Env) (w : World) :
    SameButPages w (bmDfuWritePage env w).2 := by
  unfold bmDfuWritePage
  dsimp only
  split <;> exact ⟨rfl, rfl, rfl, rfl, rfl, by simp⟩

theorem bmDfuProcessPayload_frame (env : Env) (buf : List UInt8) (w : World) :
    SameButPages w (bmDfuProcessPayload env buf w).2 := by
  unfold bmDfuProcessPayload
  dsimp only
  split
  · exact .refl w
  · split
    · split
      · exact (fillPage_frame buf w).trans (bmDfuWritePage_frame env _)
      · exact fillPage_frame buf w
    · have hhead := fillPage_frame (buf.take (bmImgPageLength - w.client.imgPageByteCounter)) w
      by_cases hfull : (w.withClient (w.client.fillPage
          (buf.take (bmImgPageLength - w.client.imgPageByteCounter)))).client.imgPageByteCounter =
          bmImgPageLength
      · simp only [hfull, if_true]
        have hpage := hhead.trans (bmDfuWritePage_frame env _)
        split
        · exact hpage
        · exact hpage.trans (fillPage_frame _ _)
      · simp only [hfull, if_false, ne_eq, not_true_eq_false]
        exact hhead.trans (fillPage_frame _ _)

theorem bmDfuWriteDirty_frame (env : Env) (w : World) :
    SameButPages w (bmDfuWriteDirty env w).2 := by
  unfold bmDfuWriteDirty
  dsimp only
  split
  · split <;> exact ⟨rfl, rfl, rfl, rfl, rfl, by simp⟩
  · exact .refl w

theorem bmDfuProcessEnd_frame (env : Env) (w : World) :
    SameButPages w (bmDfuProcessEnd env w).2 := by
  have h := bmDfuWriteDirty_frame env w
  exact ⟨h.core, h.host, h.rebootInfo, h.queue, h.unpaged,
    h.log.trans (List.suffix_cons Effect.flashAreaClose _)⟩

/-! ## Calls -/

section Calls
variable {p : Effect → Bool} (hwrite : ∀ off src r, p (.flashAreaWrite off src r) = false)
  (env : Env) (w : World)
include hwrite

theorem bmDfuWritePage_seen : (bmDfuWritePage env w).2.seen p = w.seen p := by
  unfold bmDfuWritePage
  dsimp only
  split <;> simp [World.seen, hwrite]

theorem bmDfuProcessPayload_seen (buf : List UInt8) :
    (bmDfuProcessPayload env buf w).2.seen p = w.seen p := by
  unfold bmDfuProcessPayload
  dsimp only
  split
  · rfl
  · split
    · split
      · exact bmDfuWritePage_seen hwrite env _
      · rfl
    · by_cases hfull : (w.withClient (w.client.fillPage
          (buf.take (bmImgPageLength - w.client.imgPageByteCounter)))).client.imgPageByteCounter =
          bmImgPageLength
      · simp only [hfull, if_true]
        split <;> exact bmDfuWritePage_seen hwrite env _
      · simp only [hfull, if_false, ne_eq, not_true_eq_false]
        rfl

theorem bmDfuWriteDirty_seen : (bmDfuWriteDirty env w).2.seen p = w.seen p := by
  unfold bmDfuWriteDirty
  dsimp only
  split
  · split <;> simp [World.seen, hwrite]
  · rfl

theorem bmDfuProcessEnd_seen (hclose : p .flashAreaClose = false) :
    (bmDfuProcessEnd env w).2.seen p = w.seen p := by
  rw [← bmDfuWriteDirty_seen hwrite env w]
  simp [bmDfuProcessEnd, bmDfuClientFlashAreaClose, World.seen, hclose]

end Calls

/-! ## Contents -/

variable {env : Env}

/-- Filling the page buffer without completing the page. -/
theorem Paged.fillPage {c : DfuClientCtx} {flash : Nat → UInt8} {acc : List UInt8}
    (h : Paged c flash acc) (bs : List UInt8)
    (hlt : c.imgPageByteCounter + bs.length < bmImgPageLength) :
    Paged (c.fillPage bs) flash (acc ++ bs) := by
  have hm : (c.imgPageByteCounter + bs.length) % 2 ^ 16 = c.imgPageByteCounter + bs.length := by
    apply Nat.mod_eq_of_lt
    simp only [bmImgPageLength] at hlt
    omega
  constructor
  · simp only [DfuClientCtx.fillPage, hm]
    rw [peek_blit_extend, ← List.append_assoc, h.bytes]
  · simpa only [DfuClientCtx.fillPage, hm] using hlt

/-- Writing a full page moves its bytes from the page buffer to flash. -/
theorem bmDfuWritePage_paged (hw : ∀ n, env.flashAreaWrite n = .ok) {w : World}
    {acc : List UInt8} (hb : peek w.flash 0 w.client.imgFlashOffset ++
      peek w.client.imgPageBuf 0 bmImgPageLength = acc) (hlt : acc.length < 2 ^ 32) :
    (bmDfuWritePage env w).1 = .ok ∧
      Paged (bmDfuWritePage env w).2.client (bmDfuWritePage env w).2.flash acc := by
  have hlen : w.client.imgFlashOffset + bmImgPageLength = acc.length := by
    rw [← hb]
    simp
  have hm : (w.client.imgFlashOffset + bmImgPageLength) % 2 ^ 32 =
      w.client.imgFlashOffset + bmImgPageLength := Nat.mod_eq_of_lt (by omega)
  have hx := peek_blit_extend w.flash w.client.imgFlashOffset
    (peek w.client.imgPageBuf 0 bmImgPageLength)
  rw [peek_length] at hx
  refine ⟨by simp [bmDfuWritePage, bmDfuClientFlashAreaWrite, hw], ?_, ?_⟩
  · simp only [bmDfuWritePage, bmDfuClientFlashAreaWrite, flashAfterWrite, hw, ne_eq,
      not_true_eq_false, if_false, if_true, withClient_client, withClient_flash, withFlash_flash,
      emit_client, emit_flash, withFlash_client, hm, hx, hb, peek_zero, List.append_nil]
  · simp [bmDfuWritePage, bmDfuClientFlashAreaWrite, hw, bmImgPageLength]

/-- `bmDfuProcessPayload` takes the payload, and fails exactly on an empty one. -/
theorem bmDfuProcessPayload_paged (hw : ∀ n, env.flashAreaWrite n = .ok) {w : World}
    {acc buf : List UInt8} (h : Paged w.client w.flash acc) (hbuf : buf.length ≤ bmDfuMaxChunkSize)
    (hlt : acc.length + buf.length < 2 ^ 32) :
    (bmDfuProcessPayload env buf w).1 = (buf.length == 0) ∧
      Paged (bmDfuProcessPayload env buf w).2.client (bmDfuProcessPayload env buf w).2.flash
        (acc ++ buf) := by
  have hc := h.counter
  have hl := h.length
  simp only [bmImgPageLength, bmDfuMaxChunkSize] at hc hbuf
  unfold bmDfuProcessPayload
  by_cases h0 : buf.length = 0
  · simp only [h0, if_true]
    rw [List.length_eq_zero_iff.mp h0]
    simpa using h
  by_cases hfit : bmImgPageLength > buf.length + w.client.imgPageByteCounter
  · -- the payload fits in front of the end of the page, so no page is written
    have hp := h.fillPage buf (by omega)
    have hne := hp.counter.ne
    simp only [h0, if_false, hfit, if_true, withClient_client, hne]
    exact ⟨by simp [h0], hp⟩
  · -- the head of the payload completes the page, the tail starts the next one
    simp only [bmImgPageLength] at hfit
    generalize hk : bmImgPageLength - w.client.imgPageByteCounter = k
    have hk' : w.client.imgPageByteCounter + k = 2048 := by
      simp only [bmImgPageLength] at hk
      omega
    have hr : (buf.take k).length = k := by
      rw [List.length_take]
      omega
    have hfull : (w.client.fillPage (buf.take k)).imgPageByteCounter = bmImgPageLength := by
      simp only [DfuClientCtx.fillPage, hr, bmImgPageLength]
      omega
    have hbytes : peek w.flash 0 w.client.imgFlashOffset ++
        peek (w.client.fillPage (buf.take k)).imgPageBuf 0 bmImgPageLength =
        acc ++ buf.take k := by
      have hx := peek_blit_extend w.client.imgPageBuf w.client.imgPageByteCounter (buf.take k)
      rw [hr, hk'] at hx
      rw [← h.bytes, List.append_assoc]
      exact congrArg _ hx
    obtain ⟨hok, hpage⟩ := bmDfuWritePage_paged hw
      (w := w.withClient (w.client.fillPage (buf.take k))) hbytes
      (by rw [List.length_append]; omega)
    have hzero : (bmDfuWritePage env
        (w.withClient (w.client.fillPage (buf.take k)))).2.client.imgPageByteCounter = 0 := by
      simp [bmDfuWritePage, bmDfuClientFlashAreaWrite, hw]
    have hrest := hpage.fillPage (buf.drop k) (by
      rw [hzero, List.length_drop]
      simp only [bmImgPageLength]
      omega)
    rw [List.append_assoc, List.take_append_drop] at hrest
    have hfit' : ¬ bmImgPageLength > buf.length + w.client.imgPageByteCounter := by
      simp only [bmImgPageLength]
      omega
    simp only [h0, if_false, hfit', withClient_client, hfull, if_true, hok, ne_eq,
      not_true_eq_false]
    exact ⟨by simp [h0], hrest⟩

/-- `bmDfuProcessEnd` brings everything taken to flash and succeeds. -/
theorem bmDfuProcessEnd_paged (hw : ∀ n, env.flashAreaWrite n = .ok) {w : World}
    {acc : List UInt8} (h : Paged w.client w.flash acc) (hlt : acc.length < 2 ^ 32) :
    (bmDfuProcessEnd env w).1 = false ∧
      (bmDfuProcessEnd env w).2.client.imgFlashOffset = acc.length ∧
      peek (bmDfuProcessEnd env w).2.flash 0 acc.length = acc := by
  have hl := h.length
  have hm : (w.client.imgFlashOffset + w.client.imgPageByteCounter) % 2 ^ 32 = acc.length := by
    rw [hl]
    exact Nat.mod_eq_of_lt hlt
  unfold bmDfuProcessEnd bmDfuWriteDirty
  by_cases h0 : w.client.imgPageByteCounter = 0
  · have hb := h.bytes
    rw [h0, peek_zero, List.append_nil] at hb
    rw [h0, Nat.add_zero] at hl
    simp only [h0, ne_eq, not_true_eq_false, if_false, bmDfuClientFlashAreaClose, emit_client,
      emit_flash]
    exact ⟨by simp, hl, by rw [← hl]; exact hb⟩
  · have hx := peek_blit_extend w.flash w.client.imgFlashOffset
      (peek w.client.imgPageBuf 0 w.client.imgPageByteCounter)
    rw [peek_length, h.bytes, hl] at hx
    simp only [h0, ne_eq, not_false_eq_true, if_true, bmDfuClientFlashAreaWrite, flashAfterWrite,
      hw, not_true_eq_false, if_false, bmDfuClientFlashAreaClose, emit_client, emit_flash,
      withClient_client, withClient_flash, withFlash_client, withFlash_flash, hm]
    exact ⟨by simp, trivial, hx⟩

end BmCore.Dfu
