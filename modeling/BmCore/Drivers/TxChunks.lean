import BmCore.Drivers.MacQueue
import BmCore.Drivers.OaHeaders
import BmCore.Library.Bytes
import BmCore.Library.ChunkStream

/-!
# Chunks that carry frames to the MAC

`oaCreateNextChunk` of `drivers/adin2111/adi_spi_oa.c` cuts the frames of the transmit queue into
chunks of `1 << oaCps` bytes. A chunk may carry the end of one frame and the start of the next, and
its header says where either lies. `macChunk` is what the chunk means to the MAC.
-/
namespace BmCore.Drivers
open Library

/-- `adi_eth_BufDesc_t` -/
structure BufDesc where
  /-- the bytes behind `pBuf` -/
  pBuf : Nat → UInt8
  bufSize : Nat
  trxSize : Nat
  prio : Nat := 0
  port : Nat := 0
  egressCapt : Nat := 0
  timestampValid : Bool := false
  timestamp : UInt32 := 0
  timestampExt : UInt32 := 0
  refCount : Nat := 0

/-- The frame in the buffer. -/
def BufDesc.frame (d : BufDesc) : List UInt8 := peek d.pBuf 0 d.trxSize

@[simp] theorem BufDesc.frame_length (d : BufDesc) : d.frame.length = d.trxSize := by
  simp [BufDesc.frame]

/-- What is copied out of the buffer is a part of the frame. -/
theorem BufDesc.peek_frame (d : BufDesc) {off n : Nat} (h : off + n ≤ d.trxSize) :
    peek d.pBuf off n = (d.frame.drop off).take n := by
  rw [frame, peek_drop _ (by omega), peek_take _ (by omega), Nat.zero_add]

/-- A difference of two `uint32_t`. -/
def sub32 (a b : Nat) : Nat := (a + 0x100000000 - b) % 0x100000000

theorem sub32_eq {a b : Nat} (ha : a < 0x100000000) (hb : b ≤ a) : sub32 a b = a - b := by
  unfold sub32
  omega

/-- `ADI_SPI_HEADER_SIZE` -/
def adiSpiHeaderSize : Nat := 4

/-- The members of `adi_mac_Device_t` that transmission works on. -/
structure TxSide where
  txQueue : MacQueue
  /-- the descriptors that the entries of the queue point to -/
  descs : Nat → BufDesc
  oaTxCurBufIdx : Nat
  oaTxCurBufByteOffset : Nat

namespace TxSide

/-- `txQueue.pEntries[oaTxCurBufIdx].pBufDesc` -/
def curDesc (t : TxSide) : BufDesc := t.descs (t.txQueue.pEntries t.oaTxCurBufIdx).pBufDesc

/-- What `oaCreateNextChunk` copies of the frame it has come to: the size of the copy, the header
and the buffer. -/
def fillCurrent (t : TxSide) (chunkSize : Nat) (oaTxHeader : OaTxHeader) (buf : Nat → UInt8)
    (pBuf : Nat) : TxSide × Nat × OaTxHeader × (Nat → UInt8) :=
  let desc := t.curDesc
  let firstChunk : Bool := t.oaTxCurBufByteOffset = 0
  let bytesRemaining := sub32 desc.trxSize t.oaTxCurBufByteOffset
  let bsize := if bytesRemaining > chunkSize then chunkSize else bytesRemaining
  let bytesRemaining := bytesRemaining - bsize
  let buf := blit buf (pBuf + adiSpiHeaderSize) (peek desc.pBuf t.oaTxCurBufByteOffset bsize)
  let oaTxHeader := { oaTxHeader with dv := true }
  let oaTxHeader := if firstChunk then { oaTxHeader with
    sv := true, swo := 0, tmsc := desc.egressCapt % 4, vs := desc.port % 2 } else oaTxHeader
  if bytesRemaining = 0 then
    let idx := t.oaTxCurBufIdx + 1
    ({ t with
        oaTxCurBufIdx := if idx = t.txQueue.numEntries then 0 else idx
        oaTxCurBufByteOffset := 0 },
      bsize, { oaTxHeader with ev := true, ebo := sub32 bsize 1 % 64 }, buf)
  else ({ t with oaTxCurBufByteOffset := t.oaTxCurBufByteOffset + bsize }, bsize, oaTxHeader, buf)

/-- What it copies of the next frame behind `bsize` bytes of the one before. -/
def fillNext (t : TxSide) (chunkSize bsize : Nat) (oaTxHeader : OaTxHeader) (buf : Nat → UInt8)
    (pBuf : Nat) : TxSide × OaTxHeader × (Nat → UInt8) :=
  let desc := t.curDesc
  let swo := (bsize + 3) / 4
  let swo := if oaTxHeader.ev ∧ desc.trxSize + swo * 4 ≤ chunkSize then swo + 1 else swo
  let chunkBytesRemaining := chunkSize - swo * 4
  ({ t with oaTxCurBufByteOffset := t.oaTxCurBufByteOffset + chunkBytesRemaining },
    { oaTxHeader with sv := true, swo := swo % 16, tmsc := desc.egressCapt % 4 },
    blit buf (pBuf + adiSpiHeaderSize + swo * 4)
      (peek desc.pBuf t.oaTxCurBufByteOffset chunkBytesRemaining))

/-- `oaCreateNextChunk`: `buf` is the buffer of the transaction and `pBuf` the place of the chunk in
it. `norx` says that there is no buffer to receive into. -/
def oaCreateNextChunk (t : TxSide) (oaCps : Nat) (norx : Bool) (buf : Nat → UInt8) (pBuf : Nat)
    (txEn : Bool) : TxSide × (Nat → UInt8) :=
  let chunkSize := 1 <<< oaCps
  let oaTxHeader : OaTxHeader := { dnc := true, norx }
  if txEn ∧ (t.txQueue.queueIsFull ∨ t.oaTxCurBufIdx ≠ t.txQueue.head) then
    let (t, bsize, oaTxHeader, buf) := t.fillCurrent chunkSize oaTxHeader buf pBuf
    if 4 ≤ chunkSize - bsize ∧ t.oaTxCurBufIdx ≠ t.txQueue.head ∧ ¬oaTxHeader.sv then
      let (t, oaTxHeader, buf) := t.fillNext chunkSize bsize oaTxHeader buf pBuf
      (t, blit buf pBuf (hton32Bytes oaTxHeader.setParity.value32))
    else (t, blit buf pBuf (hton32Bytes oaTxHeader.setParity.value32))
  else (t, blit buf pBuf (hton32Bytes oaTxHeader.setParity.value32))

end TxSide

/-- The header of a chunk. -/
def txHeader (bs : List UInt8) : OaTxHeader :=
  OaTxHeader.ofValue32 (hton32Word (bs.take adiSpiHeaderSize))

/-- The chunk of a header, with `payload` behind it: a frame starts at a word and ends at a byte. -/
def headerChunk (h : OaTxHeader) (payload : List UInt8) : Chunk Nat UInt8 :=
  { tag := h.vs
    start := if h.sv then some (h.swo * 4) else none
    stop := if h.ev then some h.ebo else none
    payload }

/-- What a chunk on the wire means to the MAC: nothing if the parity of its header is even, or if
the header is that of a control command or of a chunk without data. -/
def macChunk (bs : List UInt8) : Option (Chunk Nat UInt8) :=
  if parityOk (hton32Word (bs.take adiSpiHeaderSize)) ∧ (txHeader bs).dnc ∧ (txHeader bs).dv then
    some (headerChunk (txHeader bs) (bs.drop adiSpiHeaderSize))
  else none

section Written
variable {h : OaTxHeader} (hfits : h.Fits) (buf : Nat → UInt8) (pBuf n : Nat)

/-- The header that has been written in front of a payload. -/
theorem take_written : (peek (blit buf pBuf (hton32Bytes h.setParity.value32)) pBuf
    (adiSpiHeaderSize + n)).take adiSpiHeaderSize = hton32Bytes h.setParity.value32 := by
  rw [peek_take _ (Nat.le_add_right _ _), peek_blit_of_length _ _ (by simp [adiSpiHeaderSize])]

include hfits in
theorem txHeader_written :
    txHeader (peek (blit buf pBuf (hton32Bytes h.setParity.value32)) pBuf
      (adiSpiHeaderSize + n)) = h.setParity := by
  rw [txHeader, take_written, hton32Word_bytes]
  exact OaTxHeader.ofValue32_value32 hfits

include hfits in
/-- The chunk of a header that the driver has written in front of a payload. -/
theorem macChunk_written :
    macChunk (peek (blit buf pBuf (hton32Bytes h.setParity.value32)) pBuf (adiSpiHeaderSize + n)) =
      if h.dnc ∧ h.dv then some (headerChunk h (peek buf (pBuf + adiSpiHeaderSize) n))
      else none := by
  have hpayload : (peek (blit buf pBuf (hton32Bytes h.setParity.value32)) pBuf
      (adiSpiHeaderSize + n)).drop adiSpiHeaderSize = peek buf (pBuf + adiSpiHeaderSize) n := by
    rw [peek_drop _ (Nat.le_add_right _ _), Nat.add_sub_cancel_left,
      peek_blit_after _ _ (by simp [adiSpiHeaderSize])]
  rw [macChunk, txHeader_written hfits, take_written, hton32Word_bytes, h.parityOk_setParity,
    hpayload]
  cases hdnc : h.dnc <;> cases hdv : h.dv <;>
    simp [OaTxHeader.setParity, headerChunk, hdnc, hdv]

end Written

namespace TxSide
variable {t : TxSide} {k : Nat}

/-- The frames from entry `k` of the queue on. -/
def pending (t : TxSide) (k : Nat) : List (List UInt8) :=
  (t.txQueue.entries.drop k).map fun e => (t.descs e.pBufDesc).frame

/-- The driver has come to entry `k` of the queue. -/
structure At (t : TxSide) (k : Nat) : Prop where
  queue : t.txQueue.Inv
  small : t.txQueue.numEntries * 1522 < 0x100000000
  le : k ≤ t.txQueue.queueCount
  idx : t.oaTxCurBufIdx = (t.txQueue.tail + k) % t.txQueue.numEntries
  sizes : ∀ e ∈ t.txQueue.entries,
    60 ≤ (t.descs e.pBufDesc).trxSize ∧ (t.descs e.pBufDesc).trxSize ≤ 1522
  offset : ∀ f ∈ (t.pending k).head?, t.oaTxCurBufByteOffset < f.length
  none : t.pending k = [] → t.oaTxCurBufByteOffset = 0

theorem pending_eq (h : t.At k) (hk : k < t.txQueue.queueCount) :
    t.pending k = t.curDesc.frame :: t.pending (k + 1) := by
  have hlt : k < t.txQueue.entries.length := by simpa using hk
  have hget := MacQueue.getElem?_entries (q := t.txQueue) hk
  rw [List.getElem?_eq_getElem hlt, Option.some.injEq] at hget
  rw [pending, List.drop_eq_getElem_cons hlt, List.map_cons, hget, ← h.idx]
  rfl

theorem pending_eq_nil_iff (t : TxSide) (k : Nat) :
    t.pending k = [] ↔ t.txQueue.queueCount ≤ k := by
  simp [pending]

/-- The frame that the driver has come to. -/
theorem curDesc_size (h : t.At k) (hk : k < t.txQueue.queueCount) :
    60 ≤ t.curDesc.trxSize ∧ t.curDesc.trxSize ≤ 1522 ∧
      t.oaTxCurBufByteOffset < t.curDesc.trxSize := by
  have hmem := List.mem_of_getElem? (MacQueue.getElem?_entries (q := t.txQueue) hk)
  rw [← h.idx] at hmem
  have hoff := h.offset t.curDesc.frame (by rw [pending_eq h hk]; rfl)
  rw [BufDesc.frame_length] at hoff
  exact ⟨(h.sizes _ hmem).1, (h.sizes _ hmem).2, hoff⟩

/-- The driver has come to the head when nothing is pending. -/
theorem idx_eq_head_iff (h : t.At k) :
    t.oaTxCurBufIdx = t.txQueue.head ↔ k = t.txQueue.queueCount := by
  rw [h.idx]
  exact MacQueue.eq_head_iff h.queue h.le

/-- The index behind the one that the driver has come to. -/
theorem next_idx (h : t.At k) :
    (if t.oaTxCurBufIdx + 1 = t.txQueue.numEntries then 0 else t.oaTxCurBufIdx + 1) =
      (t.txQueue.tail + (k + 1)) % t.txQueue.numEntries := by
  have hlt : t.oaTxCurBufIdx < t.txQueue.numEntries := by
    rw [h.idx]
    exact Nat.mod_lt _ (by have := h.queue.size; omega)
  rw [wrapped_eq hlt, h.idx, Nat.mod_add_mod, Nat.add_assoc]

theorem fillCurrent_more {chunkSize pBuf : Nat} {buf : Nat → UInt8} {oaTxHeader : OaTxHeader}
    (hsize : t.curDesc.trxSize ≤ 1522)
    (hmore : t.oaTxCurBufByteOffset + chunkSize < t.curDesc.trxSize) :
    t.fillCurrent chunkSize oaTxHeader buf pBuf =
      ({ t with oaTxCurBufByteOffset := t.oaTxCurBufByteOffset + chunkSize }, chunkSize,
        if t.oaTxCurBufByteOffset = 0 then
          { oaTxHeader with
            dv := true, sv := true, swo := 0, tmsc := t.curDesc.egressCapt % 4
            vs := t.curDesc.port % 2 }
        else { oaTxHeader with dv := true },
        blit buf (pBuf + adiSpiHeaderSize)
          (peek t.curDesc.pBuf t.oaTxCurBufByteOffset chunkSize)) := by
  have hsub : sub32 t.curDesc.trxSize t.oaTxCurBufByteOffset =
      t.curDesc.trxSize - t.oaTxCurBufByteOffset := sub32_eq (by omega) (by omega)
  have hgt : t.curDesc.trxSize - t.oaTxCurBufByteOffset > chunkSize := by omega
  have hne : ¬ t.curDesc.trxSize - t.oaTxCurBufByteOffset - chunkSize = 0 := by omega
  simp [fillCurrent, hsub, hgt, hne]

theorem fillCurrent_last {chunkSize pBuf r : Nat} {buf : Nat → UInt8} {oaTxHeader : OaTxHeader}
    (hsize : t.curDesc.trxSize ≤ 1522) (hr : t.oaTxCurBufByteOffset + r = t.curDesc.trxSize)
    (hpos : 0 < r) (hle : r ≤ chunkSize) (hebo : r ≤ 64) :
    t.fillCurrent chunkSize oaTxHeader buf pBuf =
      ({ t with
          oaTxCurBufIdx :=
            if t.oaTxCurBufIdx + 1 = t.txQueue.numEntries then 0 else t.oaTxCurBufIdx + 1
          oaTxCurBufByteOffset := 0 }, r,
        if t.oaTxCurBufByteOffset = 0 then
          { oaTxHeader with
            dv := true, sv := true, swo := 0, tmsc := t.curDesc.egressCapt % 4
            vs := t.curDesc.port % 2, ev := true, ebo := r - 1 }
        else { oaTxHeader with dv := true, ev := true, ebo := r - 1 },
        blit buf (pBuf + adiSpiHeaderSize) (peek t.curDesc.pBuf t.oaTxCurBufByteOffset r)) := by
  have hsub : sub32 t.curDesc.trxSize t.oaTxCurBufByteOffset = r := by
    rw [sub32_eq (by omega) (by omega)]
    omega
  have hebo : sub32 r 1 % 64 = r - 1 := by
    rw [sub32_eq (by omega) (by omega)]
    omega
  have hgt : ¬ r > chunkSize := by omega
  simp only [fillCurrent, hsub, hgt, if_false, Nat.sub_self, if_true, hebo, Prod.mk.injEq, true_and,
    and_true]
  split_ifs with hoff <;> simp_all

/-- Only the position of the driver changes. -/
def moved (t : TxSide) (idx off : Nat) : TxSide :=
  { t with oaTxCurBufIdx := idx, oaTxCurBufByteOffset := off }

@[simp] theorem pending_moved (idx off : Nat) : (t.moved idx off).pending = t.pending := rfl

/-- The driver stays at an entry. -/
theorem At.stay (h : t.At k) {off : Nat} (hk : k < t.txQueue.queueCount)
    (hoff : off < t.curDesc.trxSize) : (t.moved t.oaTxCurBufIdx off).At k := by
  refine ⟨h.queue, h.small, h.le, h.idx, h.sizes, ?_, ?_⟩
  · intro f hf
    rw [pending_moved, pending_eq h hk] at hf
    obtain rfl : t.curDesc.frame = f := by simpa using hf
    simpa [moved] using hoff
  · intro hnil
    rw [pending_moved, pending_eq h hk] at hnil
    cases hnil

/-- The driver comes to the next entry. -/
theorem At.advance (h : t.At k) (hk : k < t.txQueue.queueCount) :
    (t.moved (if t.oaTxCurBufIdx + 1 = t.txQueue.numEntries then 0 else t.oaTxCurBufIdx + 1)
      0).At (k + 1) := by
  refine ⟨h.queue, h.small, hk, next_idx h, h.sizes, ?_, fun _ => rfl⟩
  intro f hf
  rw [pending_moved] at hf
  obtain ⟨e, he, rfl⟩ : ∃ e ∈ t.txQueue.entries, (t.descs e.pBufDesc).frame = f := by
    have hmem := List.mem_of_mem_head? hf
    obtain ⟨e, he, hframe⟩ := List.mem_map.mp hmem
    exact ⟨e, List.mem_of_mem_drop he, hframe⟩
  have := (h.sizes e he).1
  simp only [moved, BufDesc.frame_length]
  omega

/-- Where the next frame starts behind `r` bytes of the one before: in a word behind them, so far
back in the chunk that the frame does not end in it too. -/
theorem next_start {c r size : Nat} (hc : c % 4 = 0) (hc' : c ≤ 64) (hr : 0 < r) (hroom : r + 4 ≤ c)
    (hsize : 60 ≤ size) :
    ∃ swo, (if size + (r + 3) / 4 * 4 ≤ c then (r + 3) / 4 + 1 else (r + 3) / 4) = swo ∧
      r ≤ swo * 4 ∧ swo * 4 < c ∧ swo < 16 ∧ c - swo * 4 < size := by
  refine ⟨_, rfl, ?_⟩
  split_ifs <;> omega

/-- A chunk takes the driver from entry `k` of the queue on, with the same queue. -/
structure ChunkSpec (t t' : TxSide) (k chunkSize : Nat) (wire : List UInt8) : Prop where
  chunk : ∃ c k', macChunk wire = some c ∧ c.payload.length = chunkSize ∧
    Cut (t.pending k) t.oaTxCurBufByteOffset c (t'.pending k') t'.oaTxCurBufByteOffset ∧
    t'.At k' ∧ k' = k + (txHeader wire).ev.toNat
  same : ∃ idx off, t' = t.moved idx off

/-- Behind the end of a frame the next one starts, and does not end. -/
theorem fillNext_eq {c r : Nat} {h : OaTxHeader} (hev : h.ev = true) (hc : c % 4 = 0)
    (hc' : c ≤ 64) (hr : 0 < r) (hroom : r + 4 ≤ c) (hsize : 60 ≤ t.curDesc.trxSize)
    (hoff : t.oaTxCurBufByteOffset = 0) (buf : Nat → UInt8) (pBuf : Nat) :
    ∃ swo, r ≤ swo * 4 ∧ swo * 4 < c ∧ swo < 16 ∧ c - swo * 4 < t.curDesc.trxSize ∧
      t.fillNext c r h buf pBuf = (t.moved t.oaTxCurBufIdx (c - swo * 4),
        { h with sv := true, swo, tmsc := t.curDesc.egressCapt % 4 },
        blit buf (pBuf + adiSpiHeaderSize + swo * 4) (peek t.curDesc.pBuf 0 (c - swo * 4))) := by
  obtain ⟨swo, hswo, hle, hlt, hlt16, hshort⟩ := next_start hc hc' hr hroom hsize
  refine ⟨swo, hle, hlt, hlt16, hshort, ?_⟩
  simp [fillNext, moved, hev, hswo, hoff, Nat.mod_eq_of_lt hlt16]

theorem ChunkSpec.of_written {h : OaTxHeader} {buf : Nat → UInt8} {pBuf c k' idx off : Nat}
    (hfits : h.Fits) (hdnc : h.dnc = true) (hdv : h.dv = true) (hat : (t.moved idx off).At k')
    (hk' : k' = k + h.ev.toNat)
    (hcut : Cut (t.pending k) t.oaTxCurBufByteOffset
      (headerChunk h (peek buf (pBuf + adiSpiHeaderSize) c)) (t.pending k') off) :
    ChunkSpec t (t.moved idx off) k c
      (peek (blit buf pBuf (hton32Bytes h.setParity.value32)) pBuf (adiSpiHeaderSize + c)) := by
  refine ⟨⟨_, k', ?_, peek_length _ _ c, hcut, hat, ?_⟩, idx, off, rfl⟩
  · rw [macChunk_written hfits, if_pos ⟨hdnc, hdv⟩]
  · rw [hk', txHeader_written hfits]
    rfl

/-- While frames are pending, `oaCreateNextChunk` cuts a chunk off them. -/
theorem oaCreateNextChunk_spec (h : t.At k) (hk : k < t.txQueue.queueCount) {oaCps : Nat}
    (hcps : 3 ≤ oaCps) (hcps' : oaCps ≤ 6) (norx : Bool) (buf : Nat → UInt8) (pBuf : Nat) :
    ChunkSpec t (t.oaCreateNextChunk oaCps norx buf pBuf true).1 k (1 <<< oaCps)
      (peek (t.oaCreateNextChunk oaCps norx buf pBuf true).2 pBuf
        (adiSpiHeaderSize + 1 <<< oaCps)) := by
  obtain ⟨c, hcdef, hc4, hc8, hc64⟩ : ∃ c, 1 <<< oaCps = c ∧ c % 4 = 0 ∧ 8 ≤ c ∧ c ≤ 64 := by
    refine ⟨_, rfl, ?_⟩
    have hcases : oaCps = 3 ∨ oaCps = 4 ∨ oaCps = 5 ∨ oaCps = 6 := by omega
    rcases hcases with rfl | rfl | rfl | rfl <;> decide
  obtain ⟨hmin, hmax, hoff⟩ := curDesc_size h hk
  have hhead : t.oaTxCurBufIdx ≠ t.txQueue.head := fun heq => by
    have := (idx_eq_head_iff h).mp heq
    omega
  have hpending := pending_eq h hk
  have hlength : t.curDesc.frame.length = t.curDesc.trxSize := by simp
  unfold oaCreateNextChunk
  rw [hcdef, if_pos ⟨rfl, .inr hhead⟩]
  by_cases hmore : t.oaTxCurBufByteOffset + c < t.curDesc.trxSize
  · -- the frame fills the chunk
    have hcopied := t.curDesc.peek_frame hmore.le
    have hpayload : peek (blit buf (pBuf + adiSpiHeaderSize)
        (peek t.curDesc.pBuf t.oaTxCurBufByteOffset c)) (pBuf + adiSpiHeaderSize) c =
          (t.curDesc.frame.drop t.oaTxCurBufByteOffset).take c := by
      rw [peek_blit_of_length _ _ (peek_length _ _ c), hcopied]
    have hnone : ¬ 4 ≤ c - c := by omega
    rw [fillCurrent_more hmax hmore]
    simp only [hnone, false_and, if_false]
    have hstay := h.stay hk hmore
    split_ifs with hfirst
    · refine ChunkSpec.of_written (by simp [OaTxHeader.Fits]; omega) rfl rfl hstay rfl ?_
      rw [hpayload, hpending, hfirst, Nat.zero_add]
      exact .head rfl rfl (by omega) (by omega) (by simp [headerChunk]; omega)
        (by simp [headerChunk])
    · refine ChunkSpec.of_written (by simp [OaTxHeader.Fits]) rfl rfl hstay rfl ?_
      rw [hpayload, hpending]
      exact .middle rfl rfl (by omega) (by omega) (by omega) rfl
  · -- the frame ends in the chunk
    obtain ⟨e, hr⟩ : ∃ e, t.oaTxCurBufByteOffset + (e + 1) = t.curDesc.trxSize :=
      ⟨t.curDesc.trxSize - t.oaTxCurBufByteOffset - 1, by omega⟩
    rw [fillCurrent_last hmax hr (by omega) (by omega) (by omega)]
    have hcopied := t.curDesc.peek_frame hr.le
    rw [List.take_of_length_le (by rw [List.length_drop, hlength]; omega)] at hcopied
    have hlast : peek (blit buf (pBuf + adiSpiHeaderSize)
        (peek t.curDesc.pBuf t.oaTxCurBufByteOffset (e + 1))) (pBuf + adiSpiHeaderSize) (e + 1) =
          t.curDesc.frame.drop t.oaTxCurBufByteOffset := by
      rw [peek_blit_of_length _ _ (peek_length _ _ (e + 1)), hcopied]
    have hadvance := h.advance hk
    generalize (if t.oaTxCurBufIdx + 1 = t.txQueue.numEntries then 0
      else t.oaTxCurBufIdx + 1) = idx at hadvance ⊢
    simp only [Nat.add_sub_cancel]
    by_cases hfirst : t.oaTxCurBufByteOffset = 0
    · -- and starts in it, so no other may
      simp only [if_pos hfirst, not_true_eq_false, and_false, if_false]
      refine ChunkSpec.of_written (by simp [OaTxHeader.Fits]; omega) rfl rfl hadvance rfl ?_
      rw [hfirst] at hlast hr ⊢
      rw [hpending]
      refine .whole (b := 0) (e := e) rfl rfl (Nat.zero_le _) (by simp [headerChunk]; omega)
        (by omega) ?_
      rw [headerChunk, peek_take _ (by omega), hlast]
      rfl
    · simp only [if_neg hfirst]
      by_cases hnext : 4 ≤ c - (e + 1) ∧ idx ≠ t.txQueue.head
      · -- and the next frame starts behind it
        obtain ⟨hroom, hidx⟩ := hnext
        have hk' : k + 1 < t.txQueue.queueCount :=
          Nat.lt_of_le_of_ne hadvance.le fun heq => hidx ((idx_eq_head_iff hadvance).mpr heq)
        obtain ⟨hmin', hmax', -⟩ := curDesc_size hadvance hk'
        obtain ⟨swo, hle, hlt, hlt16, hshort, hfill⟩ := fillNext_eq (t := t.moved idx 0)
          (h := { ebo := e, ev := true, dv := true, norx, dnc := true }) rfl hc4 hc64
          (by omega : 0 < e + 1) (by omega) hmin' rfl (blit buf (pBuf + adiSpiHeaderSize)
            (peek t.curDesc.pBuf t.oaTxCurBufByteOffset (e + 1))) pBuf
        have hstay := hadvance.stay hk' hshort
        rw [if_pos ⟨hroom, hidx, by simp⟩]
        simp only [moved] at hfill
        simp only [hfill]
        have hpending' : t.pending (k + 1) = (t.moved idx 0).curDesc.frame :: t.pending (k + 2) :=
          pending_eq hadvance hk'
        have hlength' : (t.moved idx 0).curDesc.frame.length = (t.moved idx 0).curDesc.trxSize := by
          simp
        refine ChunkSpec.of_written (by simp [OaTxHeader.Fits]; omega) rfl rfl hstay rfl ?_
        rw [hpending, hpending']
        refine .lastHead (b := swo * 4) (e := e) rfl rfl (by omega) (by omega) (by omega) ?_
          (by omega) (by omega) (by simp [headerChunk]; omega) ?_
        · rw [headerChunk, peek_take _ (by omega), peek_blit_before _ _ (by omega), hlast]
        · rw [headerChunk, peek_drop _ (by omega), peek_blit_of_length _ _ (peek_length _ _ _)]
          exact BufDesc.peek_frame _ (by rw [Nat.zero_add]; exact hshort.le)
      · rw [if_neg (by simpa using hnext)]
        refine ChunkSpec.of_written (by simp [OaTxHeader.Fits]; omega) rfl rfl hadvance rfl ?_
        rw [hpending]
        refine .last (e := e) rfl rfl (by omega) (by simp [headerChunk]; omega) (by omega) ?_
        rw [headerChunk, peek_take _ (by omega), hlast]

/-- Without leave to transmit the header says that the chunk carries nothing. -/
theorem oaCreateNextChunk_false (t : TxSide) (oaCps : Nat) (norx : Bool) (buf : Nat → UInt8)
    (pBuf : Nat) : ∃ h : OaTxHeader, h.Fits ∧ h.dv = false ∧ h.ev = false ∧
      t.oaCreateNextChunk oaCps norx buf pBuf false =
        (t, blit buf pBuf (hton32Bytes h.setParity.value32)) := by
  refine ⟨{ dnc := true, norx }, by simp [OaTxHeader.Fits], rfl, rfl, ?_⟩
  rw [oaCreateNextChunk, if_neg (by simp)]

theorem oaCreateNextChunk_idle (t : TxSide) (oaCps : Nat) (norx : Bool) (buf : Nat → UInt8)
    (pBuf n : Nat) : (t.oaCreateNextChunk oaCps norx buf pBuf false).1 = t ∧
      macChunk (peek (t.oaCreateNextChunk oaCps norx buf pBuf false).2 pBuf
        (adiSpiHeaderSize + n)) = Option.none ∧
      (txHeader (peek (t.oaCreateNextChunk oaCps norx buf pBuf false).2 pBuf
        (adiSpiHeaderSize + n))).ev = false := by
  obtain ⟨h, hfits, hdv, hev, heq⟩ := t.oaCreateNextChunk_false oaCps norx buf pBuf
  rw [heq, macChunk_written hfits, txHeader_written hfits]
  refine ⟨rfl, if_neg fun hboth => ?_, hev⟩
  rw [hdv] at hboth
  exact Bool.false_ne_true hboth.2

/-- A chunk leaves the ones in front of it alone. -/
theorem oaCreateNextChunk_before (t : TxSide) (oaCps : Nat) (norx : Bool) (buf : Nat → UInt8)
    {pBuf a n : Nat} (txEn : Bool) (h : a + n ≤ pBuf) :
    peek (t.oaCreateNextChunk oaCps norx buf pBuf txEn).2 a n = peek buf a n := by
  have hcurrent (hd : OaTxHeader) : peek (t.fillCurrent (1 <<< oaCps) hd buf pBuf).2.2.2 a n =
      peek buf a n := by
    simp only [fillCurrent]
    generalize sub32 t.curDesc.trxSize t.oaTxCurBufByteOffset = r
    split_ifs <;> exact peek_blit_before _ _ (by omega)
  have hnext (t : TxSide) (r : Nat) (hd : OaTxHeader) (buf : Nat → UInt8) :
      peek (t.fillNext (1 <<< oaCps) r hd buf pBuf).2.2 a n = peek buf a n :=
    peek_blit_before _ _ (by omega)
  fun_cases oaCreateNextChunk t oaCps norx buf pBuf txEn with
  | case1 chunkSize hd hfill t1 bsize hd1 buf1 hcur hroom t2 hd2 buf2 hnxt =>
    have hcopied := hcurrent hd
    have hnexts := hnext t1 bsize hd1 buf1
    rw [hcur] at hcopied
    rw [hnxt] at hnexts
    rw [peek_blit_before _ _ h, hnexts, hcopied]
  | case2 chunkSize hd hfill t1 bsize hd1 buf1 hcur hroom =>
    have hcopied := hcurrent hd
    rw [hcur] at hcopied
    rw [peek_blit_before _ _ h, hcopied]
  | case3 => rw [peek_blit_before _ _ h]

/-- The descriptor of the frame that starts in a chunk: the driver has come to it before the chunk
or, in the middle of another frame, behind it. -/
def startedDesc (t t' : TxSide) : BufDesc :=
  if t.oaTxCurBufByteOffset = 0 then t.curDesc else t'.curDesc

/-- The frame that the driver has come to starts in the chunk unless it has started before. -/
theorem started_header {h : OaTxHeader} (hfits : h.Fits) (hsv : h.sv = false) (desc : BufDesc)
    (off : Nat) : ∀ h' : OaTxHeader, h' = (if decide (off = 0) = true then { h with
        sv := true, swo := 0, tmsc := desc.egressCapt % 4, vs := desc.port % 2 } else h) →
      h'.Fits ∧ (h'.sv = true ↔ off = 0) ∧ h'.vs = if off = 0 then desc.port % 2 else h.vs := by
  obtain ⟨hrsvd0, htmsc, hebo, hswo, hvs, hrsvd2⟩ := hfits
  rintro h' rfl
  by_cases hoff : off = 0
  · have htmsc' : desc.egressCapt % 4 < 2 ^ 2 := Nat.mod_lt _ (by decide)
    have hvs' : desc.port % 2 < 2 ^ 2 := (Nat.mod_lt _ (by decide)).trans (by decide)
    rw [if_pos (decide_eq_true hoff), if_pos hoff]
    exact ⟨⟨hrsvd0, htmsc', hebo, Nat.two_pow_pos 4, hvs', hrsvd2⟩, iff_of_true rfl hoff, rfl⟩
  · rw [if_neg (by simpa using hoff), if_neg hoff]
    exact ⟨⟨hrsvd0, htmsc, hebo, hswo, hvs, hrsvd2⟩, iff_of_false (by simp [hsv]) hoff, rfl⟩

theorem fillCurrent_header {t' : TxSide} {chunkSize pBuf bsize : Nat} {buf buf' : Nat → UInt8}
    {oaTxHeader h' : OaTxHeader} (hfits : oaTxHeader.Fits) (hsv : oaTxHeader.sv = false)
    (h : t.fillCurrent chunkSize oaTxHeader buf pBuf = (t', bsize, h', buf')) :
    h'.Fits ∧ (h'.sv = true ↔ t.oaTxCurBufByteOffset = 0) ∧
      h'.vs = if t.oaTxCurBufByteOffset = 0 then t.curDesc.port % 2 else oaTxHeader.vs := by
  have hstarted := started_header (h := { oaTxHeader with dv := true }) hfits hsv t.curDesc
    t.oaTxCurBufByteOffset _ rfl
  generalize hh : (if decide (t.oaTxCurBufByteOffset = 0) = true then _ else _) = started
    at hstarted
  simp only [fillCurrent, hh] at h
  -- how much is copied does not matter
  generalize sub32 t.curDesc.trxSize t.oaTxCurBufByteOffset = bytesRemaining at h
  generalize (if bytesRemaining > chunkSize then chunkSize else bytesRemaining) = copied at h
  by_cases hend : bytesRemaining - copied = 0
  · obtain ⟨⟨hrsvd0, htmsc, -, hswo⟩, hvs⟩ := hstarted
    rw [if_pos hend] at h
    cases h
    exact ⟨⟨hrsvd0, htmsc, Nat.mod_lt _ (by decide), hswo⟩, hvs⟩
  · rw [if_neg hend] at h
    cases h
    exact hstarted

theorem fillNext_header {chunkSize bsize pBuf : Nat} {buf : Nat → UInt8} {oaTxHeader : OaTxHeader}
    (hfits : oaTxHeader.Fits) :
    (t.fillNext chunkSize bsize oaTxHeader buf pBuf).2.1.Fits ∧
    (t.fillNext chunkSize bsize oaTxHeader buf pBuf).2.1.vs = oaTxHeader.vs := by
  obtain ⟨hrsvd0, -, hebo, -, hvs, hrsvd2⟩ := hfits
  exact ⟨⟨hrsvd0, Nat.mod_lt _ (by decide), hebo, Nat.mod_lt _ (by decide), hvs, hrsvd2⟩, rfl⟩

/-- The header of a chunk says which port a frame that starts in it is for if the frame is the first
one in the chunk. One that starts behind the end of another goes to port 1, whatever its own. -/
theorem started_port_iff {t' : TxSide} {oaCps pBuf : Nat} {norx txEn : Bool}
    {buf buf' : Nat → UInt8} (h : t.oaCreateNextChunk oaCps norx buf pBuf txEn = (t', buf'))
    (n : Nat)
    (hstart : (txHeader (peek buf' pBuf (adiSpiHeaderSize + n))).sv = true) :
    (txHeader (peek buf' pBuf (adiSpiHeaderSize + n))).vs = (t.startedDesc t').port % 2 ↔
      t.oaTxCurBufByteOffset = 0 ∨ (t.startedDesc t').port % 2 = 0 := by
  have hfits : OaTxHeader.Fits { dnc := true, norx } := by simp [OaTxHeader.Fits]
  revert h
  fun_cases oaCreateNextChunk t oaCps norx buf pBuf txEn with
  | case1 chunkSize oaTxHeader hpending t₁ bsize h₁ buf₁ hfill hnext t₂ h₂ buf₂ hfill₂ =>
    rintro ⟨⟩
    obtain ⟨hfits₁, hsv, hvs⟩ := fillCurrent_header hfits rfl hfill
    obtain ⟨hfits₂, hvs₂⟩ := hfill₂ ▸ t₁.fillNext_header hfits₁
    have hoff : t.oaTxCurBufByteOffset ≠ 0 := fun hoff => hnext.2.2 (hsv.mpr hoff)
    rw [if_neg hoff] at hvs
    rw [txHeader_written hfits₂]
    change h₂.vs = _ ↔ _
    rw [hvs₂, hvs]
    exact ⟨fun hport => .inr hport.symm, fun hport => (hport.resolve_left hoff).symm⟩
  | case2 chunkSize oaTxHeader hpending t₁ bsize h₁ buf₁ hfill hnext =>
    rintro ⟨⟩
    obtain ⟨hfits₁, hsv, hvs⟩ := fillCurrent_header hfits rfl hfill
    rw [txHeader_written hfits₁] at hstart ⊢
    have hoff : t.oaTxCurBufByteOffset = 0 := hsv.mp hstart
    rw [if_pos hoff] at hvs
    refine iff_of_true ?_ (.inl hoff)
    rw [startedDesc, if_pos hoff]
    exact hvs
  | case3 oaTxHeader hnone =>
    rintro ⟨⟩
    rw [txHeader_written hfits] at hstart
    cases hstart

/-- The driver is in the middle of a frame for port 1, and one for port 2 is queued behind it. -/
def secondFrame : TxSide where
  txQueue := ((MacQueue.init 5).put ⟨0, 0⟩).put ⟨0, 1⟩
  descs port := { pBuf := fun _ => 0, bufSize := 0, trxSize := 60, port }
  oaTxCurBufIdx := 0
  oaTxCurBufByteOffset := 8

theorem started_port_iff_second :
    (txHeader (peek (secondFrame.oaCreateNextChunk 6 false (fun _ => 0) 0 true).2 0
      (adiSpiHeaderSize + 64))).vs ≠ 1 := by
  have hport : (secondFrame.startedDesc
      (secondFrame.oaCreateNextChunk 6 false (fun _ => 0) 0 true).1).port % 2 = 1 := by
    decide +kernel
  have hstart : (txHeader (peek (secondFrame.oaCreateNextChunk 6 false (fun _ => 0) 0 true).2 0
      (adiSpiHeaderSize + 64))).sv = true := by decide +kernel
  intro hvs
  have hfirst := (started_port_iff (Prod.mk.eta).symm 64 hstart).mp (hvs.trans hport.symm)
  rw [hport] at hfirst
  exact absurd hfirst (by decide)

end TxSide

end BmCore.Drivers
