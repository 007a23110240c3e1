import BmCore.Drivers.Fcs
import BmCore.Drivers.TxChunks

/-!
# Chunks that carry frames from the MAC

The receiving part of `ADI_MAC_STATE_DATA_END` in `oaStateMachine`: every chunk is followed by a
footer that says where in the chunk a frame starts and where one ends. The bytes go to the buffer at
the tail of the receive queue. A buffer whose frame has ended leaves the queue for its callbacks,
and `receive_callback` of `drivers/adin2111/bm_adin2111.c` submits it again.

The configuration that is modelled has one receive queue, and `oaRxUseBackupBuf` is always false.
-/
namespace BmCore.Drivers
open Library

/-- `adi_mac_OaValidFlag_e` -/
inductive OaValidFlag where
  | flagNone | flagStart | flagEnd
  deriving DecidableEq, Repr

/-- `adi_mac_TsFormat_e` -/
inductive TsFormat where
  | none | free32 | ieee1588Of32 | ieee1588Of64
  deriving DecidableEq, Repr

/-- `adi_mac_OaErrorStats_t` -/
structure OaErrorStats where
  fdCount : UInt32 := 0
  invalidEvCount : UInt32 := 0
  invalidSvCount : UInt32 := 0
  ftrParityErrorCount : UInt32 := 0
  hdrParityErrorCount : UInt32 := 0
  syncErrorCount : UInt32 := 0

/-- `FCS_SIZE` -/
def fcsSize : Nat := 4

/-- `MIN_FRAME_SIZE` -/
def minFrameSize : Nat := 60

/-- `MAX_FRAME_BUF_SIZE` of `bm_adin2111.c` -/
def maxFrameBufSize : Nat := 1518 + 4 + 2

/-- `RX_QUEUE_NUM_ENTRIES` -/
def rxQueueNumEntries : Nat := 8

/-- `ADI_MAC_CALLBACK_STATUS_FCS_ERROR` -/
def callbackStatusFcsError : UInt32 := 1

/-- `ADI_MAC_CALLBACK_STATUS_RX_BUF_OVF` -/
def callbackStatusRxBufOvf : UInt32 := 2

/-- What the clients of the driver are called with. -/
inductive RxCall where
  /-- `cbRx`: the port and the source address of a frame -/
  | dynTblUpdate (event : UInt32) (port : Nat) (macAddress : List UInt8)
  /-- `callbacks->receive` of `receive_callback` -/
  | receive (event : UInt32) (portNum : Nat) (frame : List UInt8)
  deriving DecidableEq, Repr

/-- The members of `adi_mac_Device_t` that reception works on. -/
structure RxSide where
  pRxQueue : MacQueue
  /-- the descriptors that the entries of the queue point to -/
  descs : Nat → BufDesc
  oaRxCurBufByteOffset : Nat := 0
  oaValidFlag : OaValidFlag := .flagNone
  oaTimestampSplit : Bool := false
  oaTimestampParity : UInt8 := 0
  timestampFormat : TsFormat := .none
  fcsCheckEn : Bool := false
  oaErrorStats : OaErrorStats := {}
  /-- the calls so far -/
  calls : List RxCall := []

/-- The variables of `oaStateMachine` that live from chunk to chunk. -/
structure RxLocals where
  event : UInt32 := 0
  timestampBytes : Nat → UInt8 := fun _ => 0

namespace RxSide

/-- `pRxQueue->pEntries[tail].pBufDesc` -/
def tailBuf (r : RxSide) : Nat := (r.pRxQueue.pEntries r.pRxQueue.tail).pBufDesc

def tailDesc (r : RxSide) : BufDesc := r.descs r.tailBuf

def setTail (r : RxSide) (d : BufDesc) : RxSide :=
  { r with descs := Function.update r.descs r.tailBuf d }

@[simp] theorem tailDesc_setTail (r : RxSide) (d : BufDesc) : (r.setTail d).tailDesc = d :=
  Function.update_self _ _ _

/-- `MAC_SubmitRxBuffer`, without the checks of the handle and of the state -/
def submitRxBuffer (r : RxSide) (pBufDesc : Nat) : RxSide :=
  if (r.descs pBufDesc).bufSize < minFrameSize + fcsSize then r
  else if r.pRxQueue.queueIsFull then r
  else { r with pRxQueue := r.pRxQueue.put ⟨0, pBufDesc⟩ }

/-- The receive side after `adin2111_netdevice_enable`, with all of `RX_BUFFERS` submitted. `memory`
is what the allocations hold. -/
def init (memory : Nat → Nat → UInt8) : RxSide :=
  (List.range rxQueueNumEntries).foldl submitRxBuffer
    { pRxQueue := MacQueue.init (rxQueueNumEntries + 1)
      descs := fun i => { pBuf := memory i, bufSize := maxFrameBufSize, trxSize := 0 } }

/-- `receive_callback` -/
def receiveCallback (r : RxSide) (event : UInt32) (pBufDesc : Nat) : RxSide :=
  let d := r.descs pBufDesc
  let calls := r.calls ++ [.receive event (d.port + 1) (peek d.pBuf 0 d.trxSize)]
  { r with calls }.submitRxBuffer pBufDesc

/-- The buffer at the tail leaves the queue and its callbacks are called; `dynTbl` says that the
dynamic forwarding table is among them. -/
def finish (r : RxSide) (event : UInt32) (dynTbl : Bool) : RxSide :=
  let tail := r.tailBuf
  let d := r.descs tail
  let calls := if dynTbl then r.calls ++ [.dynTblUpdate event d.port (peek d.pBuf 6 6)]
    else r.calls
  { r with pRxQueue := r.pRxQueue.queueRemove, calls }.receiveCallback event tail

/-- `Event` after the check of the FCS behind the frame. -/
def fcsEvent (r : RxSide) (event : UInt32) : UInt32 :=
  let d := r.tailDesc
  let actualFcs := UInt32.ofNat (leNat (peek d.pBuf d.trxSize fcsSize))
  let expectedFcs := halFcsCalculate (peek d.pBuf 0 d.trxSize)
  if r.fcsCheckEn ∧ expectedFcs ≠ actualFcs then event ||| callbackStatusFcsError else event

/-- The rest of a timestamp, at the start of a chunk, and the offset behind it. -/
def restOfTimestamp (r : RxSide) (l : RxLocals) (chunk : Nat → UInt8) : RxSide × RxLocals × Nat :=
  if r.oaTimestampSplit then
    let word := peek chunk 0 4
    let timestampBytes := blit l.timestampBytes 0 word
    ({ r with oaTimestampSplit := false }.setTail { r.tailDesc with
        timestamp := hton32Word word
        timestampValid := calculateParity (peek timestampBytes 0 8) ≠ r.oaTimestampParity },
      { l with timestampBytes }, 4)
  else (r, l, 0)

/-- The timestamp in front of a frame, and the offset behind it. -/
def timestamp (r : RxSide) (l : RxLocals) (footer : OaRxFooter) (chunk : Nat → UInt8)
    (chunkSize : Nat) : RxSide × RxLocals × Nat :=
  let byteOffset := footer.swo * 4
  if footer.rtsa then
    let r := { r with oaTimestampParity := footer.rtsp.toNat.toUInt8 }
    if r.timestampFormat = .ieee1588Of64 then
      let word := peek chunk byteOffset 4
      let r := r.setTail { r.tailDesc with timestampExt := hton32Word word }
      let timestampBytes := blit l.timestampBytes 4 word
      let byteOffset := byteOffset + 4
      if byteOffset + 4 > chunkSize then
        ({ r with oaTimestampSplit := true }, { l with timestampBytes }, byteOffset)
      else
        let word := peek chunk byteOffset 4
        let timestampBytes := blit timestampBytes 0 word
        ({ r with oaTimestampSplit := false }.setTail { r.tailDesc with
            timestamp := hton32Word word
            timestampValid := calculateParity (peek timestampBytes 0 8) ≠ r.oaTimestampParity },
          { l with timestampBytes }, byteOffset + 4)
    else
      let word := peek chunk byteOffset 4
      let timestampBytes := blit l.timestampBytes 0 word
      (r.setTail { r.tailDesc with
          timestampExt := 0, timestamp := hton32Word word
          timestampValid := calculateParity (peek timestampBytes 0 4) ≠ r.oaTimestampParity },
        { l with timestampBytes }, byteOffset + 4)
  else (r.setTail { r.tailDesc with timestampValid := false }, l, byteOffset)

/-- The chunk holds a frame from its first byte to its last. -/
def holdsFrame (footer : OaRxFooter) : Bool := footer.ev ∧ footer.ebo > footer.swo * 4

/-- `EV`: a frame ends in the chunk. -/
def endFrame (r : RxSide) (event : UInt32) (footer : OaRxFooter) (chunk : Nat → UInt8) :
    RxSide × UInt32 :=
  let stats := r.oaErrorStats
  if footer.fd then
    ({ r with
        oaRxCurBufByteOffset := 0
        oaErrorStats := { stats with fdCount := stats.fdCount + 1 } }, event)
  else if footer.sv ∧ footer.ebo > footer.swo * 4 then (r, event)
  else if r.oaValidFlag ≠ .flagStart then
    ({ r with
        oaRxCurBufByteOffset := 0, oaValidFlag := .flagEnd
        oaErrorStats := { stats with invalidEvCount := stats.invalidEvCount + 1 } }, event)
  else
    let size := r.oaRxCurBufByteOffset + footer.ebo + 1
    if size > r.tailDesc.bufSize then
      let event := event ||| callbackStatusRxBufOvf
      ({ r.finish event true with oaRxCurBufByteOffset := 0, oaValidFlag := .flagEnd }, event)
    else
      let r := r.setTail { r.tailDesc with
        pBuf := blit r.tailDesc.pBuf r.oaRxCurBufByteOffset (peek chunk 0 (footer.ebo + 1))
        trxSize := sub32 size fcsSize }
      let event := r.fcsEvent event
      ({ r.finish event true with oaRxCurBufByteOffset := 0, oaValidFlag := .flagEnd }, event)

/-- The rest of the chunk goes to the start of the buffer at the tail. -/
def takeFrame (r : RxSide) (l : RxLocals) (footer : OaRxFooter) (chunk : Nat → UInt8)
    (chunkSize : Nat) : RxSide × RxLocals :=
  let r := r.setTail { r.tailDesc with prio := (footer.vs &&& 2) >>> 1, port := footer.vs &&& 1 }
  let (r, l, byteOffset) := r.timestamp l footer chunk chunkSize
  let bytes := peek chunk byteOffset (sub32 chunkSize byteOffset)
  ({ r.setTail { r.tailDesc with pBuf := blit r.tailDesc.pBuf 0 bytes } with
    oaRxCurBufByteOffset := bytes.length }, l)

/-- `SV`: a frame starts in the chunk. Without a buffer to receive into it is dropped. -/
def startFrame (r : RxSide) (l : RxLocals) (footer : OaRxFooter) (chunk : Nat → UInt8)
    (chunkSize : Nat) : RxSide × RxLocals :=
  let stats := r.oaErrorStats
  let r := if r.oaValidFlag = .flagStart then
    { r with oaErrorStats := { stats with invalidSvCount := stats.invalidSvCount + 1 } } else r
  if r.pRxQueue.queueIsEmpty then (r, l)
  else
    let (r, l) := r.takeFrame l footer chunk chunkSize
    if holdsFrame footer then
      let size := sub32 (sub32 (footer.ebo + 1) (footer.swo * 4)) fcsSize
      let r := r.setTail { r.tailDesc with trxSize := size }
      let event := r.fcsEvent l.event
      ({ r.finish event true with oaRxCurBufByteOffset := 0, oaValidFlag := .flagEnd },
        { l with event })
    else ({ r with oaValidFlag := .flagStart }, l)

/-- A frame goes on beyond the chunk. When the buffer has no room for a whole chunk, what has been
received is given to the callback, with the size that the buffer had before. -/
def moreOfFrame (r : RxSide) (event : UInt32) (byteOffset : Nat) (chunk : Nat → UInt8)
    (chunkSize : Nat) : RxSide × UInt32 :=
  if r.oaValidFlag ≠ .flagStart then (r, event)
  else if r.oaRxCurBufByteOffset + chunkSize > r.tailDesc.bufSize then
    let event := event ||| callbackStatusRxBufOvf
    ({ r.finish event false with oaRxCurBufByteOffset := 0 }, event)
  else
    let bytes := peek chunk byteOffset (sub32 chunkSize byteOffset)
    ({ r.setTail { r.tailDesc with
        pBuf := blit r.tailDesc.pBuf r.oaRxCurBufByteOffset bytes } with
      oaRxCurBufByteOffset := r.oaRxCurBufByteOffset + bytes.length }, event)

/-- `DV`: the chunk carries data. -/
def dataValid (r : RxSide) (l : RxLocals) (footer : OaRxFooter) (chunk : Nat → UInt8)
    (chunkSize : Nat) : RxSide × RxLocals :=
  let (r, l, byteOffset) := r.restOfTimestamp l chunk
  let (r, event) := if footer.ev then r.endFrame l.event footer chunk else (r, l.event)
  if footer.sv then r.startFrame { l with event } footer chunk chunkSize
  else if footer.ev then (r, { l with event })
  else
    let (r, event) := r.moreOfFrame event byteOffset chunk chunkSize
    (r, { l with event })

/-! ## Buffers -/

/-- The buffers in the queue. -/
def buffers (r : RxSide) : List Nat := r.pRxQueue.entries.map (·.pBufDesc)

/-- Buffers are queued, each one once and with room for a chunk. -/
structure Ready (r : RxSide) : Prop where
  queue : r.pRxQueue.Inv
  ne : r.buffers ≠ []
  nodup : r.buffers.Nodup
  room : ∀ d ∈ r.buffers, 64 ≤ (r.descs d).bufSize

/-- The same buffers stay queued, and nothing is written but into them. -/
structure Keeps (r r' : RxSide) : Prop where
  queue : r'.pRxQueue.Inv
  buffers : r'.buffers.Perm r.buffers
  bufSize : ∀ d, (r'.descs d).bufSize = (r.descs d).bufSize
  others : ∀ d ∉ r.buffers, r'.descs d = r.descs d
  beyond : ∀ d i, (r.descs d).bufSize ≤ i → (r'.descs d).pBuf i = (r.descs d).pBuf i
  fcsCheckEn : r'.fcsCheckEn = r.fcsCheckEn

variable {r r' r'' : RxSide}

namespace Keeps

theorem refl (h : r.Ready) : Keeps r r :=
  ⟨h.queue, .refl _, fun _ => rfl, fun _ _ => rfl, fun _ _ _ => rfl, rfl⟩

theorem trans (h : Keeps r r') (h' : Keeps r' r'') : Keeps r r'' := by
  refine ⟨h'.queue, h'.buffers.trans h.buffers, fun d => (h'.bufSize d).trans (h.bufSize d), ?_, ?_,
    h'.fcsCheckEn.trans h.fcsCheckEn⟩
  · intro d hd
    rw [h'.others d fun hmem => hd (h.buffers.mem_iff.mp hmem), h.others d hd]
  · intro d i hi
    rw [h'.beyond d i (by rwa [h.bufSize]), h.beyond d i hi]

/-- Only the queue and the descriptors matter. -/
theorem of_eq (h : Keeps r r') (hqueue : r''.pRxQueue = r'.pRxQueue) (hdescs : r''.descs = r'.descs)
    (hfcs : r''.fcsCheckEn = r'.fcsCheckEn) : Keeps r r'' := by
  have hbuffers : r''.buffers = r'.buffers := by rw [RxSide.buffers, hqueue, RxSide.buffers]
  exact ⟨hqueue ▸ h.queue, hbuffers ▸ h.buffers, hdescs ▸ h.bufSize, hdescs ▸ h.others,
    hdescs ▸ h.beyond, hfcs.trans h.fcsCheckEn⟩

theorem ready (h : Keeps r r') (hready : r.Ready) : r'.Ready := by
  refine ⟨h.queue, ?_, h.buffers.nodup_iff.mpr hready.nodup, ?_⟩
  · intro hnil
    apply hready.ne
    have hperm := h.buffers
    rwa [hnil, List.nil_perm] at hperm
  · intro d hd
    rw [h.bufSize]
    exact hready.room d (h.buffers.mem_iff.mp hd)

end Keeps

namespace Ready

theorem not_empty (h : r.Ready) : r.pRxQueue.queueIsEmpty = false := by
  rw [← Bool.not_eq_true, MacQueue.queueIsEmpty_iff h.queue]
  intro hnil
  exact h.ne (by rw [buffers, hnil, List.map_nil])

theorem buffers_eq (h : r.Ready) :
    r.buffers = r.tailBuf :: r.pRxQueue.queueRemove.entries.map (·.pBufDesc) := by
  rw [buffers, MacQueue.entries_queueRemove h.queue h.not_empty, List.map_cons]
  rfl

theorem tailBuf_mem (h : r.Ready) : r.tailBuf ∈ r.buffers := by
  rw [h.buffers_eq]
  exact List.mem_cons_self

theorem tail_room (h : r.Ready) : 64 ≤ r.tailDesc.bufSize := h.room _ h.tailBuf_mem

/-- The buffer of a frame that has ended goes to the end of the queue. -/
theorem finish_eq (h : r.Ready) (event : UInt32) (dynTbl : Bool) :
    r.finish event dynTbl = { r with
      pRxQueue := r.pRxQueue.queueRemove.put ⟨0, r.tailBuf⟩
      calls := r.calls ++ ((if dynTbl then
        [.dynTblUpdate event r.tailDesc.port (peek r.tailDesc.pBuf 6 6)] else []) ++
          [.receive event (r.tailDesc.port + 1)
            (peek r.tailDesc.pBuf 0 r.tailDesc.trxSize)]) } := by
  have hroom : ¬ (r.descs r.tailBuf).bufSize < minFrameSize + fcsSize :=
    Nat.not_lt.mpr h.tail_room
  have hfull := MacQueue.queueIsFull_queueRemove h.queue h.not_empty
  simp only [finish, receiveCallback, submitRxBuffer, if_neg hroom, hfull]
  cases dynTbl <;> simp [tailDesc]

theorem finish_keeps (h : r.Ready) (event : UInt32) (dynTbl : Bool) :
    Keeps r (r.finish event dynTbl) := by
  have hremove := MacQueue.inv_queueRemove h.queue
  have hfull := MacQueue.queueIsFull_queueRemove h.queue h.not_empty
  rw [h.finish_eq]
  refine ⟨MacQueue.inv_put hremove _, ?_, fun _ => rfl, fun _ _ => rfl, fun _ _ _ => rfl, rfl⟩
  rw [h.buffers_eq, buffers, MacQueue.entries_put hremove hfull, List.map_append]
  exact List.perm_append_singleton _ _

end Ready

/-- The descriptor at the tail changes, and its buffer not beyond its end. -/
theorem Keeps.write (h : Keeps r r') (hready : r.Ready) {d : BufDesc}
    (hqueue : r''.pRxQueue = r'.pRxQueue)
    (hdescs : r''.descs = Function.update r'.descs r'.tailBuf d)
    (hsize : d.bufSize = r'.tailDesc.bufSize)
    (hbeyond : ∀ i, r'.tailDesc.bufSize ≤ i → d.pBuf i = r'.tailDesc.pBuf i)
    (hfcs : r''.fcsCheckEn = r'.fcsCheckEn) : Keeps r r'' := by
  have hready' := h.ready hready
  have hset : Keeps r' (r'.setTail d) := by
    refine ⟨hready'.queue, .refl _, ?_, ?_, ?_, rfl⟩
    · intro e
      rcases eq_or_ne e r'.tailBuf with rfl | hne
      · exact (congrArg BufDesc.bufSize (tailDesc_setTail r' d)).trans hsize
      · simp [setTail, hne]
    · intro e he
      have hne : e ≠ r'.tailBuf := fun heq => he (heq ▸ hready'.tailBuf_mem)
      simp [setTail, hne]
    · intro e i hi
      rcases eq_or_ne e r'.tailBuf with rfl | hne
      · exact (congrArg (BufDesc.pBuf · i) (tailDesc_setTail r' d)).trans (hbeyond i hi)
      · simp [setTail, hne]
  exact h.trans (hset.of_eq hqueue hdescs hfcs)

/-- A copy into a buffer leaves what is behind its end alone. -/
theorem blit_beyond {m : Nat → UInt8} {off size i : Nat} {bs : List UInt8}
    (h : off + bs.length ≤ size) (hi : size ≤ i) : blit m off bs i = m i := by
  have hout : bs.length ≤ i - off := by omega
  simp [blit, hout]

theorem restOfTimestamp_keeps (h : r.Ready) (l : RxLocals) (chunk : Nat → UInt8) :
    Keeps r (r.restOfTimestamp l chunk).1 := by
  unfold restOfTimestamp
  split_ifs with hsplit
  · exact (Keeps.refl h).write h rfl rfl rfl (fun _ _ => rfl) rfl
  · exact .refl h

theorem timestamp_keeps (h : r.Ready) (l : RxLocals) (footer : OaRxFooter) (chunk : Nat → UInt8)
    (chunkSize : Nat) : Keeps r (r.timestamp l footer chunk chunkSize).1 := by
  fun_cases timestamp r l footer chunk chunkSize with
  | case1 byteOffset hrtsa r₁ hformat word r₂ timestampBytes byteOffset₁ hsplit =>
    exact (Keeps.refl h).write h rfl rfl rfl (fun _ _ => rfl) rfl
  | case2 byteOffset hrtsa r₁ hformat word r₂ timestampBytes byteOffset₁ hsplit =>
    have hext : Keeps r r₂ := (Keeps.refl h).write h rfl rfl rfl (fun _ _ => rfl) rfl
    exact hext.write h rfl rfl rfl (fun _ _ => rfl) rfl
  | case3 => exact (Keeps.refl h).write h rfl rfl rfl (fun _ _ => rfl) rfl
  | case4 => exact (Keeps.refl h).write h rfl rfl rfl (fun _ _ => rfl) rfl

/-- A timestamp lies in its chunk. -/
theorem timestamp_offset_le {footer : OaRxFooter} (hfits : footer.Fits) (r : RxSide)
    (l : RxLocals) (chunk : Nat → UInt8) : (r.timestamp l footer chunk 64).2.2 ≤ 64 := by
  have hswo : footer.swo < 2 ^ 4 := hfits.2.2.1
  fun_cases timestamp r l footer chunk 64 <;> simp only <;> omega

theorem endFrame_keeps (h : r.Ready) (event : UInt32) (footer : OaRxFooter) (chunk : Nat → UInt8) :
    Keeps r (r.endFrame event footer chunk).1 := by
  fun_cases endFrame r event footer chunk with
  | case1 => exact (Keeps.refl h).of_eq rfl rfl rfl
  | case2 => exact .refl h
  | case3 => exact (Keeps.refl h).of_eq rfl rfl rfl
  | case4 => exact (h.finish_keeps _ _).of_eq rfl rfl rfl
  | case5 hfd hwhole hflag size hsize r₁ event₁ =>
    have hcopy : Keeps r r₁ := by
      refine (Keeps.refl h).write h rfl rfl rfl (fun i hi => blit_beyond ?_ hi) rfl
      rw [peek_length]
      omega
    exact (hcopy.trans ((hcopy.ready h).finish_keeps _ _)).of_eq rfl rfl rfl

theorem takeFrame_keeps (h : r.Ready) {footer : OaRxFooter} (hfits : footer.Fits) (l : RxLocals)
    (chunk : Nat → UInt8) : Keeps r (r.takeFrame l footer chunk 64).1 := by
  fun_cases takeFrame r l footer chunk 64 with
  | case1 r₁ r₂ l₂ byteOffset htimestamp bytes =>
    have hport : Keeps r r₁ := (Keeps.refl h).write h rfl rfl rfl (fun _ _ => rfl) rfl
    have hready₁ := hport.ready h
    have hkeeps := timestamp_keeps hready₁ l footer chunk 64
    have hoff := timestamp_offset_le hfits r₁ l chunk
    rw [htimestamp] at hkeeps hoff
    simp only at hkeeps hoff
    have hroom := (hkeeps.ready hready₁).tail_room
    have hlength : 0 + bytes.length ≤ r₂.tailDesc.bufSize := by
      simp only [bytes, peek_length, sub32_eq (show 64 < 0x100000000 by omega) hoff]
      omega
    refine (hport.trans hkeeps).write h rfl rfl rfl (fun i hi => ?_) rfl
    exact blit_beyond (m := r₂.tailDesc.pBuf) hlength hi

theorem startFrame_keeps (h : r.Ready) {footer : OaRxFooter} (hfits : footer.Fits) (l : RxLocals)
    (chunk : Nat → UInt8) : Keeps r (r.startFrame l footer chunk 64).1 := by
  have hcount {r₁ : RxSide} (hr₁ : (if r.oaValidFlag = .flagStart then
      { r with oaErrorStats := { r.oaErrorStats with
        invalidSvCount := r.oaErrorStats.invalidSvCount + 1 } } else r) = r₁) : Keeps r r₁ := by
    rw [← hr₁]
    split_ifs
    · exact (Keeps.refl h).of_eq rfl rfl rfl
    · exact .refl h
  fun_cases startFrame r l footer chunk 64 with
  | case1 stats r₁ hempty => exact hcount rfl
  | case2 stats r₁ hempty r₂ l₂ htake hwhole size r₃ event =>
    have hkeeps₁ : Keeps r r₁ := hcount rfl
    have hkeeps := takeFrame_keeps (hkeeps₁.ready h) hfits l chunk
    rw [htake] at hkeeps
    have hsize : Keeps r r₃ := (hkeeps₁.trans hkeeps).write h rfl rfl rfl (fun _ _ => rfl) rfl
    exact (hsize.trans ((hsize.ready h).finish_keeps _ _)).of_eq rfl rfl rfl
  | case3 stats r₁ hempty r₂ l₂ htake hwhole =>
    have hkeeps₁ : Keeps r r₁ := hcount rfl
    have hkeeps := takeFrame_keeps (hkeeps₁.ready h) hfits l chunk
    rw [htake] at hkeeps
    exact (hkeeps₁.trans hkeeps).of_eq rfl rfl rfl

theorem moreOfFrame_keeps (h : r.Ready) (event : UInt32) {byteOffset : Nat} (hoff : byteOffset ≤ 64)
    (chunk : Nat → UInt8) : Keeps r (r.moreOfFrame event byteOffset chunk 64).1 := by
  fun_cases moreOfFrame r event byteOffset chunk 64 with
  | case1 => exact .refl h
  | case2 => exact (h.finish_keeps _ _).of_eq rfl rfl rfl
  | case3 hflag hroom bytes =>
    refine (Keeps.refl h).write h rfl rfl rfl (fun i hi => blit_beyond ?_ hi) rfl
    rw [peek_length, sub32_eq (by omega) hoff]
    omega

/-- Whatever footer a chunk has, the same buffers stay queued and nothing is written but into
them. -/
theorem dataValid_keeps (h : r.Ready) {footer : OaRxFooter} (hfits : footer.Fits) (l : RxLocals)
    (chunk : Nat → UInt8) : Keeps r (r.dataValid l footer chunk 64).1 := by
  have hrest := restOfTimestamp_keeps h l chunk
  have hoff : (r.restOfTimestamp l chunk).2.2 ≤ 64 := by
    unfold restOfTimestamp
    split_ifs <;> simp
  have hended {r₁ r₂ : RxSide} {event₁ event₂ : UInt32} (h₁ : Keeps r r₁)
      (hend : (if footer.ev then r₁.endFrame event₁ footer chunk else (r₁, event₁)) =
        (r₂, event₂)) : Keeps r r₂ := by
    split_ifs at hend
    · rw [show r₂ = (r₁.endFrame event₁ footer chunk).1 by rw [hend]]
      exact h₁.trans (endFrame_keeps (h₁.ready h) _ _ _)
    · obtain rfl : r₁ = r₂ := congrArg Prod.fst hend
      exact h₁
  fun_cases dataValid r l footer chunk 64 with
  | case1 r₁ l₁ byteOffset hr₁ r₂ event hend hsv =>
    rw [hr₁] at hrest
    have h₂ := hended hrest hend
    exact h₂.trans (startFrame_keeps (h₂.ready h) hfits _ _)
  | case2 r₁ l₁ byteOffset hr₁ r₂ event hend hsv hev =>
    rw [hr₁] at hrest
    exact hended hrest hend
  | case3 r₁ l₁ byteOffset hr₁ r₂ event hend hsv hev r₃ event₃ hmore =>
    rw [hr₁] at hrest hoff
    have h₂ := hended hrest hend
    have h₃ := moreOfFrame_keeps (h₂.ready h) event hoff chunk
    rw [hmore] at h₃
    exact h₂.trans h₃

end RxSide

end BmCore.Drivers
