import BmCore.Drivers.TxChunks
import Mathlib.Algebra.Order.BigOperators.Group.List

/-!
# Transactions

`oaSpiProcess` fills the buffer of a transaction on the serial interface with as many chunks as
there is something to transmit and credit for it, or as many as there is something to receive. What
the chunks of a transaction mean to the MAC continues the frames of the transmit queue.
-/
namespace BmCore.Drivers
open Library

namespace TxSide

/-- The index behind `txIdx`. -/
def nextIdx (t : TxSide) (txIdx : Nat) : Nat :=
  if txIdx + 1 = t.txQueue.numEntries then 0 else txIdx + 1

/-- The `do` loop of `oaSpiProcess`, which adds the sizes of the frames from `txIdx` to the head; it
goes around the ring at most once. -/
def queueByteCount (t : TxSide) : (fuel txIdx : Nat) → Nat
  | 0, _ => 0
  | fuel + 1, txIdx => (t.descs (t.txQueue.pEntries txIdx).pBufDesc).trxSize +
      if t.nextIdx txIdx = t.txQueue.head then 0 else t.queueByteCount fuel (t.nextIdx txIdx)

/-- The chunks that there are frames and credit for. -/
def txChunkCount (t : TxSide) (oaTxc oaCps : Nat) : Nat :=
  if t.txQueue.queueIsEmpty then 0
  else
    let queueByteCount :=
      sub32 (t.queueByteCount t.txQueue.numEntries t.oaTxCurBufIdx) t.oaTxCurBufByteOffset
    let chunkCount := (queueByteCount >>> oaCps) +
      if queueByteCount &&& (1 <<< oaCps - 1) ≠ 0 then 1 else 0
    if chunkCount > oaTxc then oaTxc else chunkCount

/-- The chunks of a transaction. -/
def chunkCount (t : TxSide) (oaTxc oaRca oaCps oaMaxChunkCount : Nat) (irqStart : Bool) : Nat :=
  let chunkCount := t.txChunkCount oaTxc oaCps
  let chunkCount := if oaRca > chunkCount then oaRca else chunkCount
  let chunkCount := if chunkCount > oaMaxChunkCount then oaMaxChunkCount else chunkCount
  if chunkCount = 0 ∧ irqStart then 1 else chunkCount

/-- The last loop of `oaSpiProcess`, with `oaTrxSize`. -/
def createChunks (t : TxSide) (oaCps : Nat) (norx : Bool) (buf : Nat → UInt8)
    (txEn : Nat → Bool) (chunkCount : Nat) : TxSide × (Nat → UInt8) × Nat :=
  (List.range chunkCount).foldl (fun s i =>
    let r := s.1.oaCreateNextChunk oaCps norx s.2.1 s.2.2 (txEn i)
    (r.1, r.2, s.2.2 + (adiSpiHeaderSize + 1 <<< oaCps))) (t, buf, 0)

/-- `oaSpiProcess`: the buffer of the transaction and its size. `irqStart` says that the driver is
servicing an interrupt. -/
def oaSpiProcess (t : TxSide) (oaTxc oaRca oaCps oaMaxChunkCount : Nat) (irqStart norx : Bool)
    (buf : Nat → UInt8) : TxSide × (Nat → UInt8) × Nat :=
  let txChunkCount := t.txChunkCount oaTxc oaCps
  t.createChunks oaCps norx buf (fun i => if irqStart then false else i < txChunkCount)
    (t.chunkCount oaTxc oaRca oaCps oaMaxChunkCount irqStart)

variable {t : TxSide} {k oaCps : Nat}

/-- The chunks in the buffer of a transaction. -/
def wires (buf : Nat → UInt8) (chunkSize n : Nat) : List (List UInt8) :=
  (List.range n).map fun i =>
    peek buf (i * (adiSpiHeaderSize + chunkSize)) (adiSpiHeaderSize + chunkSize)

theorem wires_succ (buf : Nat → UInt8) (chunkSize n : Nat) : wires buf chunkSize (n + 1) =
    wires buf chunkSize n ++
      [peek buf (n * (adiSpiHeaderSize + chunkSize)) (adiSpiHeaderSize + chunkSize)] := by
  simp [wires, List.range_succ]

/-- The loop over the queue counts what is pending. -/
theorem queueByteCount_eq (h : t.txQueue.Inv) {fuel : Nat} (hk : k < t.txQueue.queueCount)
    (hfuel : t.txQueue.queueCount - k ≤ fuel) :
    t.queueByteCount fuel ((t.txQueue.tail + k) % t.txQueue.numEntries) =
      ((t.pending k).map List.length).sum := by
  induction fuel generalizing k with
  | zero => omega
  | succ fuel ih =>
    have hget := MacQueue.getElem?_entries (q := t.txQueue) hk
    have hlt : k < t.txQueue.entries.length := by simpa using hk
    rw [List.getElem?_eq_getElem hlt, Option.some.injEq] at hget
    have hpending : t.pending k =
        (t.descs t.txQueue.entries[k].pBufDesc).frame :: t.pending (k + 1) := by
      rw [pending, List.drop_eq_getElem_cons hlt, List.map_cons]
      rfl
    have hnext : t.nextIdx ((t.txQueue.tail + k) % t.txQueue.numEntries) =
        (t.txQueue.tail + (k + 1)) % t.txQueue.numEntries := by
      rw [nextIdx, wrapped_eq (Nat.mod_lt _ (by have := h.size; omega)), Nat.mod_add_mod,
        Nat.add_assoc]
    rw [queueByteCount, hnext, hpending, List.map_cons, List.sum_cons, BufDesc.frame_length, hget]
    congr 1
    split_ifs with hhead
    · have hend := (MacQueue.eq_head_iff h (by omega : k + 1 ≤ t.txQueue.queueCount)).mp hhead
      rw [(pending_eq_nil_iff t (k + 1)).mpr (by omega)]
      rfl
    · have hmore : k + 1 ≠ t.txQueue.queueCount := fun heq =>
        hhead ((MacQueue.eq_head_iff h (by omega)).mpr heq)
      exact ih (by omega) (by omega)

/-- Something remains to be sent just when the driver has not come to the head. -/
theorem remaining_pos_iff (h : t.At k) :
    0 < remaining (t.pending k) t.oaTxCurBufByteOffset ↔ k < t.txQueue.queueCount := by
  refine ⟨fun hpos => ?_, fun hk => ?_⟩
  · by_contra hle
    rw [(pending_eq_nil_iff t k).mpr (by omega)] at hpos
    simp [remaining] at hpos
  · have hoff := (curDesc_size h hk).2.2
    rw [pending_eq h hk, remaining, List.map_cons, List.sum_cons, BufDesc.frame_length]
    omega

/-- As many chunks as it takes for `bytes` bytes. -/
theorem roundUp_spec (bytes oaCps : Nat) :
    (bytes >>> oaCps) + (if bytes &&& (1 <<< oaCps - 1) ≠ 0 then 1 else 0) =
      (bytes + (1 <<< oaCps - 1)) / 1 <<< oaCps := by
  have hpos := Nat.two_pow_pos oaCps
  have hdiv := Nat.div_add_mod bytes (2 ^ oaCps)
  have hmod := Nat.mod_lt bytes hpos
  rw [Nat.one_shiftLeft, Nat.shiftRight_eq_div_pow, Nat.and_two_pow_sub_one_eq_mod]
  symm
  split_ifs with hzero
  · apply Nat.div_eq_of_lt_le
    · rw [Nat.add_mul, Nat.one_mul, Nat.mul_comm]
      omega
    · rw [Nat.add_mul, Nat.add_mul, Nat.one_mul, Nat.mul_comm]
      omega
  · apply Nat.div_eq_of_lt_le
    · rw [Nat.add_zero, Nat.mul_comm]
      omega
    · rw [Nat.add_mul, Nat.add_mul, Nat.one_mul, Nat.mul_comm]
      omega

/-- The bytes in the queue fit into a word. -/
theorem pending_bytes_lt (h : t.At k) : ((t.pending k).map List.length).sum < 0x100000000 := by
  have hle : ((t.pending k).map List.length).sum ≤ (t.pending k).length * 1522 := by
    have hall : ∀ n ∈ (t.pending k).map List.length, n ≤ 1522 := by
      intro n hn
      obtain ⟨f, hf, rfl⟩ := List.mem_map.mp hn
      obtain ⟨e, he, rfl⟩ := List.mem_map.mp hf
      rw [BufDesc.frame_length]
      exact (h.sizes e (List.mem_of_mem_drop he)).2
    simpa using List.sum_le_card_nsmul _ _ hall
  have hlength : (t.pending k).length ≤ t.txQueue.numEntries := by
    have := MacQueue.queueCount_lt h.queue
    simp only [pending, List.length_map, List.length_drop, MacQueue.entries_length]
    omega
  have := Nat.mul_le_mul_right 1522 hlength
  have := h.small
  omega

/-- There is a chunk with frame data only while there are bytes to put into it and credit for it. -/
theorem txChunkCount_spec (h : t.At k) (hk : k < t.txQueue.queueCount) (oaTxc : Nat) :
    t.txChunkCount oaTxc oaCps = min oaTxc
      ((remaining (t.pending k) t.oaTxCurBufByteOffset + (1 <<< oaCps - 1)) / 1 <<< oaCps) := by
  have hnonempty : t.txQueue.queueIsEmpty = false := by
    rw [Bool.eq_false_iff, ne_eq, MacQueue.queueIsEmpty_iff h.queue, ← List.length_eq_zero_iff,
      MacQueue.entries_length]
    omega
  have hoff := (curDesc_size h hk).2.2
  have hcount : t.queueByteCount t.txQueue.numEntries t.oaTxCurBufIdx =
      ((t.pending k).map List.length).sum := by
    rw [h.idx]
    exact queueByteCount_eq h.queue hk (by have := MacQueue.queueCount_lt h.queue; omega)
  have hbytes := pending_bytes_lt h
  have hsub : sub32 ((t.pending k).map List.length).sum t.oaTxCurBufByteOffset =
      remaining (t.pending k) t.oaTxCurBufByteOffset := by
    refine sub32_eq hbytes ?_
    rw [pending_eq h hk, List.map_cons, List.sum_cons, BufDesc.frame_length]
    omega
  simp only [txChunkCount, hnonempty, Bool.false_eq_true, if_false, hcount, hsub, roundUp_spec]
  split_ifs <;> omega

/-- A chunk leaves the ones in front of it as they are. -/
theorem wires_create (t : TxSide) (norx : Bool) (buf : Nat → UInt8) (n : Nat) (txEn : Bool) :
    wires (t.oaCreateNextChunk oaCps norx buf (n * (adiSpiHeaderSize + 1 <<< oaCps)) txEn).2
      (1 <<< oaCps) n = wires buf (1 <<< oaCps) n := by
  apply List.map_congr_left
  intro i hi
  apply oaCreateNextChunk_before
  have hin : i + 1 ≤ n := List.mem_range.mp hi
  calc i * (adiSpiHeaderSize + 1 <<< oaCps) + (adiSpiHeaderSize + 1 <<< oaCps)
      = (i + 1) * (adiSpiHeaderSize + 1 <<< oaCps) := by rw [Nat.add_mul, Nat.one_mul]
    _ ≤ n * (adiSpiHeaderSize + 1 <<< oaCps) := Nat.mul_le_mul_right _ hin

/-- What a loop that creates chunks leaves behind. -/
structure CreateSpec (t t' : TxSide) (k chunkSize n : Nat) (txEn : Nat → Bool)
    (buf' : Nat → UInt8) : Prop where
  moved : ∃ idx off, t' = t.moved idx off
  chunks : ∃ k', t'.At k' ∧
    Cuts (t.pending k) t.oaTxCurBufByteOffset ((wires buf' chunkSize n).filterMap macChunk)
      (t.pending k') t'.oaTxCurBufByteOffset ∧
    k' = k + (wires buf' chunkSize n).countP (fun w => (txHeader w).ev) ∧
    remaining (t.pending k) t.oaTxCurBufByteOffset ≤
      remaining (t.pending k') t'.oaTxCurBufByteOffset + n * chunkSize
  data : ((wires buf' chunkSize n).filterMap macChunk).length = (List.range n).countP txEn

theorem createChunks_spec (h : t.At k) (hcps : 3 ≤ oaCps) (hcps' : oaCps ≤ 6) (norx : Bool)
    (buf : Nat → UInt8) (txEn : Nat → Bool) (n : Nat)
    (hen : ∀ i, txEn i = true →
      i * 1 <<< oaCps < remaining (t.pending k) t.oaTxCurBufByteOffset) :
    (t.createChunks oaCps norx buf txEn n).2.2 = n * (adiSpiHeaderSize + 1 <<< oaCps) ∧
      CreateSpec t (t.createChunks oaCps norx buf txEn n).1 k (1 <<< oaCps) n txEn
        (t.createChunks oaCps norx buf txEn n).2.1 := by
  induction n with
  | zero =>
    refine ⟨by simp [createChunks], ⟨t.oaTxCurBufIdx, t.oaTxCurBufByteOffset, rfl⟩, ⟨k, h, ?_⟩, ?_⟩
    · exact ⟨.nil, by simp [wires], by simp [createChunks]⟩
    · simp [wires]
  | succ n ih =>
    have hstep : t.createChunks oaCps norx buf txEn (n + 1) =
        let s := t.createChunks oaCps norx buf txEn n
        let r := s.1.oaCreateNextChunk oaCps norx s.2.1 s.2.2 (txEn n)
        (r.1, r.2, s.2.2 + (adiSpiHeaderSize + 1 <<< oaCps)) := by
      simp only [createChunks, List.range_succ, List.foldl_append, List.foldl_cons, List.foldl_nil]
    rw [hstep]
    generalize t.createChunks oaCps norx buf txEn n = s at ih
    obtain ⟨t', buf', size⟩ := s
    obtain ⟨rfl, ⟨idx, off, rfl⟩, ⟨k', hat, hcuts, hk', hremaining⟩, hdata⟩ := ih
    refine ⟨by simp only [Nat.add_mul, Nat.one_mul], ?_⟩
    dsimp only at hat hcuts hk' hremaining hdata ⊢
    cases hn : txEn n with
    | false =>
      obtain ⟨hsame, hchunk, hev⟩ := (t.moved idx off).oaCreateNextChunk_idle oaCps norx buf'
        (n * (adiSpiHeaderSize + 1 <<< oaCps)) (1 <<< oaCps)
      rw [hsame]
      refine ⟨⟨idx, off, rfl⟩, ⟨k', hat, ?_, ?_, ?_⟩, ?_⟩
      · rw [wires_succ, wires_create, List.filterMap_append, List.filterMap_cons_none hchunk]
        simpa using hcuts
      · rw [wires_succ, wires_create, List.countP_append, List.countP_cons_of_neg (by simp [hev])]
        simpa using hk'
      · rw [Nat.add_mul]
        exact hremaining.trans (Nat.add_le_add_left (Nat.le_add_right _ _) _)
      · rw [wires_succ, wires_create, List.filterMap_append, List.filterMap_cons_none hchunk,
          List.range_succ, List.countP_append, List.countP_cons_of_neg (by simp [hn])]
        simpa using hdata
    | true =>
      have hpending : k' < (t.moved idx off).txQueue.queueCount := by
        apply (remaining_pos_iff hat).mp
        have hlt := hen n hn
        rw [pending_moved]
        omega
      obtain ⟨⟨c, k'', hchunk, hlength, hcut, hat', hk''⟩, idx', off', hsame⟩ :=
        oaCreateNextChunk_spec hat hpending hcps hcps' norx buf'
          (n * (adiSpiHeaderSize + 1 <<< oaCps))
      rw [hsame] at hcut hat' ⊢
      have hlt := hcut.remaining_lt
      simp only [pending_moved, hlength] at hlt hcut
      refine ⟨⟨idx', off', rfl⟩, ⟨k'', hat', ?_, ?_, ?_⟩, ?_⟩
      · rw [wires_succ, wires_create, List.filterMap_append, List.filterMap_cons_some hchunk]
        exact hcuts.snoc hcut
      · rw [wires_succ, wires_create, List.countP_append, hk'', hk', Nat.add_assoc]
        congr 2
      · rw [Nat.add_mul, Nat.one_mul]
        omega
      · rw [wires_succ, wires_create, List.filterMap_append, List.filterMap_cons_some hchunk,
          List.range_succ, List.countP_append, List.countP_cons_of_pos (by simp [hn])]
        simpa using hdata

/-- The chunks that a transaction has room for. -/
def txEnabled (t : TxSide) (oaTxc oaCps : Nat) (irqStart : Bool) (i : Nat) : Bool :=
  if irqStart then false else decide (i < t.txChunkCount oaTxc oaCps)

/-- The chunks of a transaction carry on with the queue where the last one has left off. -/
theorem oaSpiProcess_spec (h : t.At k) (hk : k < t.txQueue.queueCount ∨ t.txQueue.queueCount = 0)
    (hcps : 3 ≤ oaCps) (hcps' : oaCps ≤ 6) (oaTxc oaRca oaMaxChunkCount : Nat)
    (irqStart norx : Bool) (buf : Nat → UInt8) :
    (t.oaSpiProcess oaTxc oaRca oaCps oaMaxChunkCount irqStart norx buf).2.2 =
        t.chunkCount oaTxc oaRca oaCps oaMaxChunkCount irqStart * (adiSpiHeaderSize + 1 <<< oaCps) ∧
      CreateSpec t (t.oaSpiProcess oaTxc oaRca oaCps oaMaxChunkCount irqStart norx buf).1 k
        (1 <<< oaCps) (t.chunkCount oaTxc oaRca oaCps oaMaxChunkCount irqStart)
        (t.txEnabled oaTxc oaCps irqStart)
        (t.oaSpiProcess oaTxc oaRca oaCps oaMaxChunkCount irqStart norx buf).2.1 := by
  refine createChunks_spec h hcps hcps' norx buf (t.txEnabled oaTxc oaCps irqStart) _ ?_
  intro i hi
  have hlt : i < t.txChunkCount oaTxc oaCps := by
    cases irqStart with
    | false => simpa [txEnabled] using hi
    | true => simp [txEnabled] at hi
  have hpos := Nat.two_pow_pos oaCps
  rcases hk with hk | hempty
  · rw [txChunkCount_spec h hk, Nat.one_shiftLeft] at hlt
    have hle := (Nat.le_div_iff_mul_le hpos).mp (Nat.lt_min.mp hlt).2
    rw [Nat.succ_mul] at hle
    rw [Nat.one_shiftLeft]
    omega
  · have hnone : t.txQueue.queueIsEmpty = true := by
      rw [MacQueue.queueIsEmpty_iff h.queue, ← List.length_eq_zero_iff, MacQueue.entries_length]
      exact hempty
    rw [txChunkCount, if_pos hnone] at hlt
    omega

end TxSide

end BmCore.Drivers
