import BmCore.Drivers.OaStateMachine

/-!
# Frames transmitted

In every run of the driver in which the MAC accepts its chunks, what has been sent means the frames
that clients have queued, in order: those that have been sent already, and the part that has been
sent of the next one.
-/
namespace BmCore.Drivers
open Library

namespace TxSide
variable {t : TxSide} {k : Nat}

/-- Descriptors may change while the frames in the queue do not. -/
theorem At.with_descs (h : t.At k) {descs : Nat → BufDesc}
    (hframe : ∀ e ∈ t.txQueue.entries, (descs e.pBufDesc).frame = (t.descs e.pBufDesc).frame) :
    { t with descs }.At k ∧ { t with descs }.pending k = t.pending k := by
  have hpending : { t with descs }.pending k = t.pending k :=
    List.map_congr_left fun e he => hframe e (List.mem_of_mem_drop he)
  have hsize (e : FrameStruct) (he : e ∈ t.txQueue.entries) :
      (descs e.pBufDesc).trxSize = (t.descs e.pBufDesc).trxSize := by
    have hlength := congrArg List.length (hframe e he)
    simpa using hlength
  refine ⟨⟨h.queue, h.small, h.le, h.idx, fun e he => ?_, ?_, ?_⟩, hpending⟩
  · rw [hsize e he]
    exact h.sizes e he
  · rw [hpending]
    exact h.offset
  · rw [hpending]
    exact h.none

/-- A frame queues up behind the others. -/
theorem At.put (h : t.At k) (hroom : t.txQueue.queueIsFull = false) (e : FrameStruct)
    (hsize : 60 ≤ (t.descs e.pBufDesc).trxSize ∧ (t.descs e.pBufDesc).trxSize ≤ 1522) :
    { t with txQueue := t.txQueue.put e }.At k ∧
      { t with txQueue := t.txQueue.put e }.pending k =
        t.pending k ++ [(t.descs e.pBufDesc).frame] := by
  have hentries := MacQueue.entries_put h.queue hroom e
  have hcount := MacQueue.queueCount_put h.queue hroom e
  have hpending : { t with txQueue := t.txQueue.put e }.pending k =
      t.pending k ++ [(t.descs e.pBufDesc).frame] := by
    simp only [pending]
    rw [hentries, List.drop_append_of_le_length (by rw [MacQueue.entries_length]; exact h.le),
      List.map_append]
    rfl
  refine ⟨⟨MacQueue.inv_put h.queue e, h.small, ?_, h.idx, ?_, ?_, ?_⟩, hpending⟩
  · rw [hcount]
    exact Nat.le_succ_of_le h.le
  · intro e' he'
    rw [hentries, List.mem_append, List.mem_singleton] at he'
    rcases he' with he' | rfl
    · exact h.sizes e' he'
    · exact hsize
  · intro f hf
    rw [hpending] at hf
    change t.oaTxCurBufByteOffset < _
    cases hnil : t.pending k with
    | nil =>
      rw [hnil] at hf
      obtain rfl : (t.descs e.pBufDesc).frame = f := by simpa using hf
      rw [h.none hnil, BufDesc.frame_length]
      omega
    | cons g rest =>
      apply h.offset f
      rw [hnil] at hf ⊢
      exact hf
  · intro hnil
    rw [hpending] at hnil
    simp at hnil

/-- The queue holds the frames that the driver has come past. -/
theorem At.not_empty (h : t.At (k + 1)) : t.txQueue.queueIsEmpty = false := by
  rw [Bool.eq_false_iff, ne_eq, MacQueue.queueIsEmpty_iff h.queue, ← List.length_eq_zero_iff,
    MacQueue.entries_length]
  have := h.le
  omega

/-- The oldest frame, which has been sent, leaves the queue. -/
theorem At.remove (h : t.At (k + 1)) :
    { t with txQueue := t.txQueue.queueRemove }.At k ∧
      { t with txQueue := t.txQueue.queueRemove }.pending k = t.pending (k + 1) := by
  have hne := h.not_empty
  have hentries := MacQueue.entries_queueRemove h.queue hne
  have hcount := MacQueue.queueCount_queueRemove h.queue hne
  have hpending : { t with txQueue := t.txQueue.queueRemove }.pending k = t.pending (k + 1) := by
    simp only [pending]
    rw [hentries, List.drop_succ_cons]
  have htail : t.txQueue.queueRemove.tail = (t.txQueue.tail + 1) % t.txQueue.numEntries :=
    pseudoModulo_eq (by have := h.queue.size; have := h.queue.tail; omega)
  refine ⟨⟨MacQueue.inv_queueRemove h.queue, h.small, ?_, ?_, ?_, ?_, ?_⟩, hpending⟩
  · have := h.le
    change k ≤ t.txQueue.queueRemove.queueCount
    omega
  · change t.oaTxCurBufIdx = (t.txQueue.queueRemove.tail + k) % t.txQueue.numEntries
    rw [htail, Nat.mod_add_mod, Nat.add_assoc, Nat.add_comm 1 k]
    exact h.idx
  · intro e he
    apply h.sizes e
    rw [hentries]
    exact List.mem_cons_of_mem _ he
  · rw [hpending]
    exact h.offset
  · rw [hpending]
    exact h.none

end TxSide

namespace MacDevice
variable {d d' : MacDevice} {k : Nat}

/-- What the chunks of a transaction leave alone when they end. -/
structure Same (d d' : MacDevice) : Prop where
  spiTxBuf : d'.spiTxBuf = d.spiTxBuf
  oaCps : d'.oaCps = d.oaCps
  oaMaxChunkCount : d'.oaMaxChunkCount = d.oaMaxChunkCount
  wire : d'.wire = d.wire
  queued : d'.queued = d.queued

theorem Same.refl (d : MacDevice) : Same d d := ⟨rfl, rfl, rfl, rfl, rfl⟩

theorem Same.trans {d'' : MacDevice} (h : Same d d') (h' : Same d' d'') : Same d d'' :=
  ⟨h'.spiTxBuf.trans h.spiTxBuf, h'.oaCps.trans h.oaCps,
    h'.oaMaxChunkCount.trans h.oaMaxChunkCount, h'.wire.trans h.wire, h'.queued.trans h.queued⟩

theorem chunkSize_of_cps (hcps : d'.oaCps = d.oaCps) : d'.chunkSize = d.chunkSize := by
  rw [chunkSize, chunkSize, hcps]

theorem chunkStep_of_cps (hcps : d'.oaCps = d.oaCps) : d'.chunkStep = d.chunkStep := by
  rw [chunkStep, chunkStep, chunkSize_of_cps hcps]

theorem Same.chunkStep (h : Same d d') : d'.chunkStep = d.chunkStep := chunkStep_of_cps h.oaCps

/-- The queue without its oldest frame. -/
theorem txDone_spec (h : d.tx.At (k + 1)) (event : UInt32) :
    (d.txDone event).tx.At k ∧ (d.txDone event).tx.pending k = d.tx.pending (k + 1) := by
  obtain ⟨hat, hpending⟩ := h.remove
  have hframe (e : FrameStruct) : ((d.txDone event).tx.descs e.pBufDesc).frame =
      (d.tx.descs e.pBufDesc).frame := by
    simp only [txDone]
    rcases eq_or_ne e.pBufDesc (d.tx.txQueue.pEntries d.tx.txQueue.tail).pBufDesc with heq | hne
    · rw [heq, Function.update_self, BufDesc.frame, BufDesc.frame]
    · rw [Function.update_of_ne hne]
  obtain ⟨hat', hpending'⟩ := hat.with_descs fun e _ => hframe e
  exact ⟨hat', hpending'.trans hpending⟩

/-- The chunk at an index of the transaction ends a frame. -/
def endsFrame (d : MacDevice) (i : Nat) : Bool :=
  (txHeader (peek d.spiTxBuf (i * d.chunkStep) adiSpiHeaderSize)).ev

theorem Same.endsFrame (h : Same d d') (i : Nat) : d'.endsFrame i = d.endsFrame i := by
  rw [MacDevice.endsFrame, MacDevice.endsFrame, h.spiTxBuf, h.chunkStep]

/-- How many of the first `n` chunks of the transaction end a frame. -/
def ends (d : MacDevice) (n : Nat) : Nat := (List.range n).countP d.endsFrame

theorem ends_succ (d : MacDevice) (n : Nat) :
    d.ends (n + 1) = d.ends n + (d.endsFrame n).toNat := by
  rw [ends, List.range_succ, List.countP_append, ← ends]
  cases hev : d.endsFrame n <;> simp [hev]

theorem ends_le (d : MacDevice) {n m : Nat} (h : n ≤ m) : d.ends n ≤ d.ends m :=
  (List.range_sublist.mpr h).countP_le

/-- The MAC has accepted the chunks of the transaction. -/
def Accepted (d : MacDevice) (spiRxBuf : Nat → UInt8) (n : Nat) : Prop :=
  ∀ i < n, checkFooter (hton32Word (peek spiRxBuf (i * d.chunkStep + d.chunkSize) 4)) = .good

instance (d : MacDevice) (spiRxBuf : Nat → UInt8) (n : Nat) : Decidable (d.Accepted spiRxBuf n) :=
  inferInstanceAs (Decidable (∀ i < n,
    checkFooter (hton32Word (peek spiRxBuf (i * d.chunkStep + d.chunkSize) 4)) = .good))

theorem Same.accepted (h : Same d d') {spiRxBuf : Nat → UInt8} {n : Nat}
    (hgood : d.Accepted spiRxBuf n) : d'.Accepted spiRxBuf n := by
  intro i hi
  rw [h.chunkStep, chunkSize_of_cps h.oaCps]
  exact hgood i hi

/-- A chunk that has been accepted takes its frame out of the queue if it ends one. -/
theorem chunkEnd_eq {spiRxBuf : Nat → UInt8} {i : Nat}
    (hgood : checkFooter (hton32Word (peek spiRxBuf (i * d.chunkStep + d.chunkSize) 4)) = .good)
    (l : OaLocals) : Same d (d.chunkEnd l spiRxBuf (i * d.chunkStep)).1 ∧
      (d.chunkEnd l spiRxBuf (i * d.chunkStep)).1.tx =
        if d.endsFrame i then (d.txDone 0).tx else d.tx := by
  simp only [chunkEnd, hgood, if_true, endsFrame]
  split_ifs with hev
  · exact ⟨⟨rfl, rfl, rfl, rfl, rfl⟩, (if_pos hev).symm⟩
  · exact ⟨⟨rfl, rfl, rfl, rfl, rfl⟩, (if_neg hev).symm⟩

/-- The frames that end in the first chunks of a transaction leave the queue with them. -/
theorem chunksEnd_spec {spiRxBuf : Nat → UInt8} {N : Nat} (hat : d.tx.At (d.ends N))
    (hgood : d.Accepted spiRxBuf N) (l : OaLocals) {n : Nat} (hn : n ≤ N) :
    Same d (d.chunksEnd l spiRxBuf n).1 ∧
      (d.chunksEnd l spiRxBuf n).1.tx.oaTxCurBufByteOffset = d.tx.oaTxCurBufByteOffset ∧
      ∃ k, k + d.ends n = d.ends N ∧ (d.chunksEnd l spiRxBuf n).1.tx.At k ∧
        (d.chunksEnd l spiRxBuf n).1.tx.pending k = d.tx.pending (d.ends N) := by
  induction n with
  | zero => exact ⟨.refl d, rfl, d.ends N, rfl, hat, rfl⟩
  | succ n ih =>
    obtain ⟨hsame, hoff, k, hk, hat', hpending⟩ := ih (Nat.le_of_succ_le hn)
    rw [chunksEnd_succ]
    generalize d.chunksEnd l spiRxBuf n = s at hsame hoff hat' hpending
    obtain ⟨hsame', htx⟩ := chunkEnd_eq (hsame.accepted hgood n hn) s.2
    rw [hsame.chunkStep, hsame.endsFrame] at htx
    rw [hsame.chunkStep] at hsame'
    have hle := d.ends_le hn
    rw [htx, ends_succ]
    rw [ends_succ] at hle
    refine ⟨hsame.trans hsame', ?_⟩
    cases hev : d.endsFrame n with
    | false => exact ⟨hoff, k, by simpa using hk, hat', hpending⟩
    | true =>
      rw [hev, Bool.toNat_true] at hle
      obtain ⟨k', rfl⟩ : ∃ k', k = k' + 1 := ⟨k - 1, by omega⟩
      obtain ⟨hat'', hpending'⟩ := txDone_spec hat' 0
      refine ⟨hoff, k', ?_, hat'', hpending'.trans hpending⟩
      rw [Bool.toNat_true]
      omega

/-! ## What holds in every state -/

/-- The chunks sent mean the frames queued but for those pending from entry `k` of the queue on. -/
structure Sent (d : MacDevice) (k : Nat) : Prop where
  cps : 3 ≤ d.oaCps ∧ d.oaCps ≤ 6
  room : 0 < d.oaMaxChunkCount ∧ d.oaMaxChunkCount * d.chunkStep ≤ bufferSize
  position : d.tx.At k
  progress : Progress d.queued (Reassembly.decode (d.wire.filterMap macChunk)) (d.tx.pending k)
    d.tx.oaTxCurBufByteOffset
  conforms : Along Reassembly.step Reassembly.Fits Reassembly.init (d.wire.filterMap macChunk)

/-- The entries of the queue whose frames end in the transaction that is going on. -/
def inFlight (d : MacDevice) : Nat := if d.state = .dataEnd then d.ends d.trxChunks else 0

/-- The transaction fits into its buffer, and the MAC has room for the chunks with data. -/
structure InCredit (d : MacDevice) : Prop where
  pos : 0 < d.trxChunks
  size : d.oaTrxSize ≤ bufferSize
  data : ((TxSide.wires d.spiTxBuf d.chunkSize d.trxChunks).filterMap macChunk).length ≤ d.oaTxc

/-- Between two events no transaction is going on just when the driver is ready, and one that is
going on with data is within what the MAC has room for. -/
structure Good (d : MacDevice) : Prop where
  sent : d.Sent d.inFlight
  started : d.state ≠ .irqStart
  spi : d.spiState = .ready ↔ d.state = .ready
  credit : d.state = .dataEnd → d.InCredit

/-- There is nothing to do that the MAC has room or frames for. -/
def Idle (d : MacDevice) : Prop :=
  (d.tx.txQueue.queueIsEmpty = true ∨ d.oaTxc = 0) ∧
    (d.rx.pRxQueue.queueIsEmpty = true ∨ d.oaRca = 0)

/-- No data are being sent or received, and no interrupt is being served. -/
def Quiet (d : MacDevice) : Prop := d.state = .ready ∨ d.state = .controlEnd

theorem not_quiet (hready : d.state ≠ .ready) (hend : d.state ≠ .controlEnd) : ¬d.Quiet :=
  fun hquiet => hquiet.elim hready hend

/-- When no data are being sent or received, there are none to be. -/
def Settled (d : MacDevice) : Prop := d.Quiet → d.Idle

theorem settled_of_not_quiet (h : ¬d.Quiet) : d.Settled := fun hquiet => absurd hquiet h

theorem chunkStep_pos (d : MacDevice) : 0 < d.chunkStep := by
  unfold chunkStep adiSpiHeaderSize
  omega

/-- The chunks of a transaction of `n` chunks. -/
theorem trxChunks_eq {n : Nat} (h : d.oaTrxSize = n * d.chunkStep) : d.trxChunks = n := by
  have hpos := d.chunkStep_pos
  rw [trxChunks, h, Nat.add_sub_assoc hpos, Nat.add_comm, Nat.add_mul_div_right _ _ hpos,
    Nat.div_eq_of_lt (by omega), Nat.zero_add]

theorem ends_eq (d : MacDevice) (n : Nat) :
    d.ends n = (TxSide.wires d.spiTxBuf d.chunkSize n).countP fun w => (txHeader w).ev := by
  rw [ends, TxSide.wires, List.countP_map]
  apply List.countP_congr
  intro i _
  have hheader : txHeader (peek d.spiTxBuf (i * d.chunkStep) adiSpiHeaderSize) =
      txHeader (peek d.spiTxBuf (i * d.chunkStep) d.chunkStep) := by
    have hle : adiSpiHeaderSize ≤ d.chunkStep := Nat.le_add_right _ _
    rw [txHeader, txHeader, peek_take _ (Nat.le_refl _), peek_take _ hle]
  rw [endsFrame, hheader]
  rfl

/-- The chunks of the next transaction. -/
def nextChunks (d : MacDevice) : Nat :=
  d.tx.chunkCount d.oaTxc d.oaRca d.oaCps d.oaMaxChunkCount false

theorem countP_range_le {p : Nat → Bool} {m : Nat} (h : ∀ i, p i = true → i < m) (n : Nat) :
    (List.range n).countP p ≤ min n m := by
  induction n with
  | zero => simp
  | succ n ih =>
    rw [List.range_succ, List.countP_append]
    cases hp : p n with
    | false =>
      rw [List.countP_cons_of_neg (by simp [hp]), List.countP_nil]
      omega
    | true =>
      have hlt := h n hp
      rw [List.countP_cons_of_pos hp, List.countP_nil]
      omega

theorem txChunkCount_le (d : MacDevice) : d.tx.txChunkCount d.oaTxc d.oaCps ≤ d.oaTxc := by
  unfold TxSide.txChunkCount
  split_ifs
  · exact Nat.zero_le _
  · simp only
    split_ifs <;> omega

/-- There is a next transaction unless there is nothing to do for it. -/
theorem nextChunks_eq_zero (h : d.Sent 0) :
    d.nextChunks = 0 ↔ (d.tx.txQueue.queueIsEmpty = true ∨ d.oaTxc = 0) ∧ d.oaRca = 0 := by
  have htx : d.tx.txChunkCount d.oaTxc d.oaCps = 0 ↔
      d.tx.txQueue.queueIsEmpty = true ∨ d.oaTxc = 0 := by
    rcases Nat.eq_zero_or_pos d.tx.txQueue.queueCount with hzero | hpos
    · have hempty : d.tx.txQueue.queueIsEmpty = true := by
        rw [MacQueue.queueIsEmpty_iff h.position.queue, ← List.length_eq_zero_iff,
          MacQueue.entries_length]
        exact hzero
      simp [TxSide.txChunkCount, hempty]
    · have hempty : ¬ d.tx.txQueue.queueIsEmpty = true := by
        rw [MacQueue.queueIsEmpty_iff h.position.queue, ← List.length_eq_zero_iff,
          MacQueue.entries_length]
        omega
      have hremaining := (TxSide.remaining_pos_iff h.position).mpr hpos
      rw [TxSide.txChunkCount_spec h.position hpos, Nat.one_shiftLeft]
      have hpow := Nat.two_pow_pos d.oaCps
      have hchunks : 0 < (remaining (d.tx.pending 0) d.tx.oaTxCurBufByteOffset +
          (2 ^ d.oaCps - 1)) / 2 ^ d.oaCps := Nat.div_pos (by omega) hpow
      refine ⟨fun hmin => .inr ?_, fun hor => ?_⟩
      · omega
      · rw [hor.resolve_left hempty, Nat.zero_min]
  have hroom := h.room.1
  unfold nextChunks TxSide.chunkCount
  rw [← htx]
  simp only [Bool.false_eq_true, and_false, if_false]
  split_ifs <;> omega

/-- What has been sent when a transaction has been started with `spec`. -/
theorem Sent.of_create (h : d.Sent 0) {n : Nat} {txEn : Nat → Bool}
    (hsize : d'.oaTrxSize = n * d'.chunkStep) (hstate : d'.state = .dataEnd)
    (hcps : d'.oaCps = d.oaCps) (hmax : d'.oaMaxChunkCount = d.oaMaxChunkCount)
    (hqueued : d'.queued = d.queued)
    (hwire : d'.wire = d.wire ++ TxSide.wires d'.spiTxBuf d'.chunkSize d'.trxChunks)
    (hspec : TxSide.CreateSpec d.tx d'.tx 0 d'.chunkSize n txEn d'.spiTxBuf) :
    d'.Sent d'.inFlight := by
  obtain ⟨⟨idx, off, hmoved⟩, ⟨k', hat, hcuts, hk', -⟩, -⟩ := hspec
  have hchunks : d'.trxChunks = n := trxChunks_eq hsize
  have hstep := chunkStep_of_cps hcps
  have hflight : d'.inFlight = k' := by
    rw [inFlight, if_pos hstate, ends_eq, hchunks, hk', Nat.zero_add]
  obtain ⟨hprogress, halong⟩ := h.progress.cuts hcuts
  have hmeans : d'.wire.filterMap macChunk = d.wire.filterMap macChunk ++
      (TxSide.wires d'.spiTxBuf d'.chunkSize n).filterMap macChunk := by
    rw [hwire, hchunks, List.filterMap_append]
  have hpending : d'.tx.pending k' = d.tx.pending k' := by
    rw [hmoved]
    rfl
  rw [hflight]
  refine ⟨by rw [hcps]; exact h.cps, by rw [hmax, hstep]; exact h.room, hat, ?_, ?_⟩
  · rw [hmeans, hqueued, hpending, Reassembly.decode, List.foldl_append]
    exact hprogress
  · rw [hmeans]
    exact along_append.mpr ⟨h.conforms, halong⟩

/-- A transaction is started with chunks that carry on where the last one has left off. -/
theorem startData_good (h : d.Sent 0) (hchunks : d.nextChunks ≠ 0) {spiState : SpiState}
    (hspi : spiState ≠ .ready) : (d.startData spiState).Good := by
  obtain ⟨hsize, hspec⟩ :=
    TxSide.oaSpiProcess_spec h.position (Nat.eq_zero_or_pos _).symm h.cps.1 h.cps.2 d.oaTxc
      d.oaRca d.oaMaxChunkCount false d.rx.pRxQueue.queueIsEmpty d.spiTxBuf
  have hdata := hspec.data
  have htrx : (d.startData spiState).oaTrxSize =
      d.nextChunks * (d.startData spiState).chunkStep := hsize
  have hn := trxChunks_eq htrx
  have hle : d.nextChunks ≤ d.oaMaxChunkCount := by
    unfold nextChunks TxSide.chunkCount
    simp only [Bool.false_eq_true, and_false, if_false]
    split_ifs <;> omega
  refine ⟨h.of_create htrx rfl rfl rfl rfl rfl hspec, ?_, ?_, fun _ => ⟨?_, ?_, ?_⟩⟩
  · change MacState.dataEnd ≠ .irqStart
    decide
  · change spiState = .ready ↔ MacState.dataEnd = .ready
    simp [hspi]
  · rw [hn]
    exact Nat.pos_of_ne_zero hchunks
  · rw [htrx]
    exact (Nat.mul_le_mul_right _ hle).trans h.room.2
  · have hcount := countP_range_le (p := d.tx.txEnabled d.oaTxc d.oaCps false)
      (m := d.tx.txChunkCount d.oaTxc d.oaCps) (fun i hi => by simpa [TxSide.txEnabled] using hi)
      d.nextChunks
    rw [hn]
    exact (hdata.trans_le hcount).trans ((Nat.min_le_right _ _).trans d.txChunkCount_le)

/-- Only the transmit side and what has been sent matter. -/
theorem Sent.of_eq (h : d.Sent k) (htx : d'.tx = d.tx) (hcps : d'.oaCps = d.oaCps)
    (hmax : d'.oaMaxChunkCount = d.oaMaxChunkCount) (hwire : d'.wire = d.wire)
    (hqueued : d'.queued = d.queued) : d'.Sent k := by
  have hstep := chunkStep_of_cps hcps
  refine ⟨by rw [hcps]; exact h.cps, by rw [hmax, hstep]; exact h.room,
    by rw [htx]; exact h.position, ?_, by rw [hwire]; exact h.conforms⟩
  rw [htx, hwire, hqueued]
  exact h.progress

theorem idle_good (h : d.Sent 0) : d.idle.Good := by
  refine ⟨h.of_eq rfl rfl rfl rfl rfl, ?_, ?_, ?_⟩
  · change MacState.ready ≠ .irqStart
    decide
  · exact iff_of_true rfl rfl
  · change MacState.ready = .dataEnd → _
    simp

/-- The next transaction is started, unless there is nothing to do. -/
theorem dataStart_good (h : d.Sent 0) : d.dataStart.Good ∧ d.dataStart.Settled := by
  have htrx : (d.startData .txFrame).oaTrxSize = d.nextChunks * d.chunkStep :=
    (TxSide.oaSpiProcess_spec h.position (Nat.eq_zero_or_pos _).symm h.cps.1 h.cps.2 d.oaTxc
      d.oaRca d.oaMaxChunkCount false d.rx.pRxQueue.queueIsEmpty d.spiTxBuf).1
  unfold dataStart
  rcases eq_or_ne d.nextChunks 0 with hzero | hne
  · have htx : (d.startData .txFrame).tx = d.tx := by
      change (d.tx.createChunks _ _ _ _ d.nextChunks).1 = _
      rw [hzero]
      rfl
    rw [hzero, Nat.zero_mul] at htrx
    rw [if_neg (by simp [htrx]), htx]
    obtain ⟨htxIdle, hrca⟩ := (nextChunks_eq_zero h).mp hzero
    exact ⟨idle_good (h.of_eq rfl rfl rfl rfl rfl), fun _ => ⟨htxIdle, .inr hrca⟩⟩
  · have hpos := Nat.mul_pos (Nat.pos_of_ne_zero hne) d.chunkStep_pos
    rw [if_pos (by rw [htrx]; exact Nat.ne_of_gt hpos)]
    exact ⟨startData_good h hne (by decide), settled_of_not_quiet (not_quiet nofun nofun)⟩

/-- The chunk that serves an interrupt carries no data. -/
theorem oaIrqHandler_good (h : d.Good) (hspi : d.spiState = .ready) : d.oaIrqHandler.Good := by
  have hstate : d.state = .ready := h.spi.mp hspi
  have hsent : d.Sent 0 := by
    have hflight : d.inFlight = 0 := by rw [inFlight, if_neg (by simp [hstate])]
    exact hflight ▸ h.sent
  obtain ⟨header, hheader, hfits, hdv, hev⟩ : ∃ header : OaTxHeader,
      header = { dnc := true, norx := true } ∧ header.Fits ∧ header.dv = false ∧
        header.ev = false := ⟨_, rfl, by simp [OaTxHeader.Fits], rfl, rfl⟩
  obtain ⟨d', hd'⟩ : ∃ d', d' = d.oaIrqHandler := ⟨_, rfl⟩
  have hfields : d'.tx = d.tx ∧ d'.oaCps = d.oaCps ∧ d'.oaMaxChunkCount = d.oaMaxChunkCount ∧
      d'.queued = d.queued ∧ d'.state = .dataEnd ∧ d'.spiState = .rx ∧
      d'.oaTrxSize = d.chunkStep ∧
      d'.spiTxBuf = blit d.spiTxBuf 0 (hton32Bytes header.setParity.value32) ∧
      d'.wire = d.wire ++ TxSide.wires d'.spiTxBuf d.chunkSize 1 := by
    rw [hd', oaIrqHandler, if_pos hspi, hheader, ← OaTxHeader.setParityBitwise_eq]
    exact ⟨rfl, rfl, rfl, rfl, rfl, rfl, rfl, rfl, rfl⟩
  obtain ⟨htx, hcps, hmax, hqueued, hstate', hspi', htrx, hbuf, hwire⟩ := hfields
  have hsize := chunkSize_of_cps hcps
  have hstep := chunkStep_of_cps hcps
  have hone : d'.trxChunks = 1 := trxChunks_eq (by rw [htrx, hstep, Nat.one_mul])
  have hwires : TxSide.wires d'.spiTxBuf d.chunkSize 1 =
      [peek d'.spiTxBuf 0 (adiSpiHeaderSize + d.chunkSize)] := by simp [TxSide.wires]
  have hnone : (TxSide.wires d'.spiTxBuf d.chunkSize 1).filterMap macChunk = [] := by
    rw [hwires, hbuf, List.filterMap_cons_none, List.filterMap_nil]
    rw [macChunk_written hfits, if_neg (by simp [hdv])]
  have hends : d'.ends 1 = 0 := by
    rw [ends_eq, hsize, hwires, hbuf, List.countP_cons_of_neg, List.countP_nil]
    rw [txHeader_written hfits]
    simpa [OaTxHeader.setParity] using hev
  have hflight : d'.inFlight = 0 := by rw [inFlight, if_pos hstate', hone, hends]
  have hmeans : d'.wire.filterMap macChunk = d.wire.filterMap macChunk := by
    rw [hwire, List.filterMap_append, hnone, List.append_nil]
  rw [← hd']
  refine ⟨?_, by simp [hstate'], by simp [hspi', hstate'], fun _ => ?_⟩
  · rw [hflight]
    refine ⟨by rw [hcps]; exact hsent.cps, by rw [hmax, hstep]; exact hsent.room,
      by rw [htx]; exact hsent.position, ?_, by rw [hmeans]; exact hsent.conforms⟩
    rw [hmeans, htx, hqueued]
    exact hsent.progress
  · refine ⟨by omega, ?_, ?_⟩
    · rw [htrx]
      exact (Nat.le_mul_of_pos_left _ hsent.room.1).trans hsent.room.2
    · rw [hone, hsize, hnone]
      exact Nat.zero_le _

/-- A transaction without data is going on, or none. -/
theorem control_good (h : d.Sent 0) (hspi : d.spiState = .ready ↔ d.state = .ready)
    (hend : d.state ≠ .dataEnd) (hstart : d.state ≠ .irqStart) : d.Good := by
  refine ⟨?_, hstart, hspi, fun hs => absurd hs hend⟩
  rw [inFlight, if_neg hend]
  exact h

/-- Nothing is in flight unless a transaction with data is going on. -/
theorem Good.sent_zero (h : d.Good) (hend : d.state ≠ .dataEnd) : d.Sent 0 := by
  have hsent := h.sent
  rwa [inFlight, if_neg hend] at hsent

/-- A transaction whose chunks the MAC has accepted ends. -/
theorem dataEnd_good (h : d.Good) (hstate : d.state = .dataEnd)
    {spiRxBuf : Nat → UInt8} (hgood : d.Accepted spiRxBuf d.trxChunks)
    (timestampBytes : Nat → UInt8) : (d.dataEnd spiRxBuf timestampBytes).Good ∧
      (d.dataEnd spiRxBuf timestampBytes).Settled := by
  have hsent := h.sent
  rw [inFlight, if_pos hstate] at hsent
  obtain ⟨hsame, hoff, k, hk, hat, hpending⟩ := chunksEnd_spec hsent.position hgood
    { rx := { timestampBytes } } (Nat.le_refl _)
  unfold dataEnd
  generalize d.chunksEnd { rx := { timestampBytes } } spiRxBuf d.trxChunks = s at *
  obtain ⟨d', l⟩ := s
  obtain rfl : k = 0 := by omega
  have hsent' : d'.Sent 0 := by
    refine ⟨by rw [hsame.oaCps]; exact hsent.cps,
      by rw [hsame.oaMaxChunkCount, hsame.chunkStep]; exact hsent.room, hat, ?_,
      by rw [hsame.wire]; exact hsent.conforms⟩
    rw [hsame.wire, hsame.queued, hpending, hoff]
    exact hsent.progress
  simp only
  split_ifs with hstatus hmore
  · refine ⟨control_good (hsent'.of_eq rfl rfl rfl rfl rfl) (iff_of_false (by simp) (by simp))
      (by simp) (by simp), settled_of_not_quiet (not_quiet nofun nofun)⟩
  · refine ⟨startData_good hsent' ?_ (by decide), ?_⟩
    · rw [ne_eq, nextChunks_eq_zero hsent']
      rintro ⟨hnone | hnone, hrca⟩ <;> simp_all
    · exact settled_of_not_quiet (not_quiet nofun nofun)
  · refine ⟨idle_good hsent', fun _ => ⟨?_, ?_⟩⟩
    · by_contra hneg
      change ¬(d'.tx.txQueue.queueIsEmpty = true ∨ d'.oaTxc = 0) at hneg
      exact hmore (.inl (by simpa using hneg))
    · by_contra hneg
      change ¬(d'.rx.pRxQueue.queueIsEmpty = true ∨ d'.oaRca = 0) at hneg
      exact hmore (.inr (by simpa using hneg))

/-- After a submission the next transaction is started if the driver is ready. -/
theorem submitEnd_eq (d : MacDevice) : d.submitEnd =
    if ¬d.tx.txQueue.queueIsEmpty ∧ d.state = .ready then
      { d with irq := false, state := .dataStart }.dataStart
    else d := by
  unfold submitEnd processTxQueue
  split_ifs with hmore
  · rw [if_pos hmore.1, if_pos hmore.2]
  · rfl

/-- What follows when a client has submitted a buffer. It is sent at once unless a transaction is
going on. -/
theorem submitEnd_good (h : d.Good) {tx : TxSide} {queued : List (List UInt8)}
    (hsent : { d with tx, queued }.Sent d.inFlight) : { d with tx, queued }.submitEnd.Good := by
  rw [submitEnd_eq]
  split_ifs with hmore
  · rw [inFlight, if_neg (by simp [show d.state = .ready from hmore.2])] at hsent
    refine (dataStart_good ?_).1
    exact hsent.of_eq rfl rfl rfl rfl rfl
  · refine ⟨hsent, h.started, h.spi, fun hstate => ?_⟩
    obtain ⟨hpos, hsize, hdata⟩ := h.credit hstate
    exact ⟨hpos, hsize, hdata⟩

/-- A buffer that is submitted while no client accesses a register is not left behind. -/
theorem submitEnd_settled (h : d.Settled) {tx : TxSide} {queued : List (List UInt8)}
    (hsent : { d with tx, queued }.Sent d.inFlight) (hcontrol : d.state ≠ .controlEnd) :
    { d with tx, queued }.submitEnd.Settled := by
  rw [submitEnd_eq]
  split_ifs with hmore
  · rw [inFlight, if_neg (by simp [show d.state = .ready from hmore.2])] at hsent
    refine (dataStart_good ?_).2
    exact hsent.of_eq rfl rfl rfl rfl rfl
  · intro hquiet
    have hready : d.state = .ready := hquiet.resolve_right hcontrol
    refine ⟨.inl ?_, (h (.inl hready)).2⟩
    by_contra hempty
    exact hmore ⟨hempty, hready⟩

/-- The event is one that clients and the MAC cause: a descriptor is not changed while its frame is
queued, and a transaction ends with its chunks accepted. -/
def Admissible (d : MacDevice) : Event → Prop
  | .submit _ pBufDesc desc => (∀ e ∈ d.tx.txQueue.entries, e.pBufDesc ≠ pBufDesc) ∨
      (d.rx.fcsCheckEn = false ∧ desc.frame = (d.tx.descs pBufDesc).frame)
  | .dataDone spiRxBuf _ => d.state = .dataEnd → d.Accepted spiRxBuf d.trxChunks
  | _ => True

instance (d : MacDevice) (event : Event) : Decidable (d.Admissible event) :=
  match event with
  | .submit _ pBufDesc desc => inferInstanceAs (Decidable
      ((∀ e ∈ d.tx.txQueue.entries, e.pBufDesc ≠ pBufDesc) ∨
        (d.rx.fcsCheckEn = false ∧ desc.frame = (d.tx.descs pBufDesc).frame)))
  | .dataDone spiRxBuf _ =>
    inferInstanceAs (Decidable (d.state = .dataEnd → d.Accepted spiRxBuf d.trxChunks))
  | .interrupt | .ctrlDone _ | .reg _ => .isTrue trivial

/-- No frame is submitted while the transaction of an access to a register is going on. -/
def SubmitsBetween (d : MacDevice) : Event → Prop
  | .submit _ _ _ => d.state ≠ .controlEnd
  | _ => True

instance (d : MacDevice) (event : Event) : Decidable (d.SubmitsBetween event) :=
  match event with
  | .submit _ _ _ => inferInstanceAs (Decidable (d.state ≠ .controlEnd))
  | .dataDone _ _ | .interrupt | .ctrlDone _ | .reg _ => .isTrue trivial

/-- No client returns from its access while data are being sent or received. -/
def FinishesQuiet (d : MacDevice) : Event → Prop
  | .reg (.finish _) => d.Quiet
  | _ => True

instance (d : MacDevice) (event : Event) : Decidable (d.FinishesQuiet event) :=
  match event with
  | .reg (.finish _) => inferInstanceAs (Decidable (d.state = .ready ∨ d.state = .controlEnd))
  | .reg .start | .reg (.go _) | .reg .done => .isTrue trivial
  | .submit _ _ _ | .dataDone _ _ | .interrupt | .ctrlDone _ => .isTrue trivial

/-- A frame that is submitted is queued behind the others, or nothing has changed. -/
theorem submit_eq (h : d.Good) {header : UInt16} {pBufDesc : Nat} {desc : BufDesc}
    (hadm : d.Admissible (.submit header pBufDesc desc)) :
    ∃ tx queued, d.step (.submit header pBufDesc desc) = { d with tx, queued }.submitEnd ∧
      { d with tx, queued }.Sent d.inFlight := by
  have hframe {desc' : BufDesc} (hsame : d.rx.fcsCheckEn = false → desc'.frame = desc.frame) :
      ∀ e ∈ d.tx.txQueue.entries, (Function.update d.tx.descs pBufDesc desc' e.pBufDesc).frame =
        (d.tx.descs e.pBufDesc).frame := by
    intro e he
    rcases eq_or_ne e.pBufDesc pBufDesc with heq | hne
    · rcases hadm with hfresh | ⟨hfcs, hsubmitted⟩
      · exact absurd heq (hfresh e he)
      · rw [heq, Function.update_self, hsame hfcs, hsubmitted]
    · rw [Function.update_of_ne hne]
  have hsent := h.sent
  have hrejected : { d with tx := { d.tx with
      descs := Function.update d.tx.descs pBufDesc desc } }.Sent d.inFlight := by
    obtain ⟨hat, hpending⟩ := hsent.position.with_descs (hframe fun _ => rfl)
    refine ⟨hsent.cps, hsent.room, hat, ?_, hsent.conforms⟩
    simp only [hpending]
    exact hsent.progress
  unfold step
  simp only
  fun_cases submitTxBuffer { d with tx := { d.tx with
    descs := Function.update d.tx.descs pBufDesc desc } } header pBufDesc with
  | case1 => exact ⟨_, d.queued, rfl, hrejected⟩
  | case2 => exact ⟨_, d.queued, rfl, hrejected⟩
  | case3 => exact ⟨_, d.queued, rfl, hrejected⟩
  | case4 desc' hsize hfcs hroom fcs desc'' =>
    have hdesc : desc' = desc := Function.update_self _ _ _
    have hsame : d.rx.fcsCheckEn = false → desc''.frame = desc.frame := by
      intro hen
      simp only [desc'', hen, Bool.false_eq_true, if_false, hdesc]
    have hsizes : 60 ≤ desc''.trxSize ∧ desc''.trxSize ≤ 1522 := by
      simp only [minFrameSize, maxFrameSize] at hsize
      simp only [desc'', fcsSize]
      split_ifs
      · simp only
        omega
      · omega
    obtain ⟨hat, hpending⟩ := hsent.position.with_descs (hframe hsame)
    obtain ⟨hat', hpending'⟩ := hat.put (by simpa using hroom) ⟨header, pBufDesc⟩
      (by simpa using hsizes)
    refine ⟨_, _, rfl, ?_⟩
    rw [Function.update_idem]
    refine ⟨hsent.cps, hsent.room, hat', ?_, hsent.conforms⟩
    simp only [hpending', hpending, Function.update_self]
    exact hsent.progress.append hsent.position.none [desc''.frame]

/-- An access to a register starts and ends its transaction in a driver that is ready. -/
theorem reg_good (h : d.Good) (event : RegEvent) : (d.regStep event).Good := by
  obtain ⟨state, spiState, irq, pendingCtrl, accesses, heq⟩ := d.regStep_eq event
  have hcontrol (hend : d.state ≠ .dataEnd) : (d.regStep event).Sent 0 := by
    rw [heq]
    exact (h.sent_zero hend).of_eq rfl rfl rfl rfl rfl
  rcases d.regStep_state event with ⟨hstate, hspi⟩ | ⟨hready, hstate, hspi⟩ | ⟨hwas, hstate, hspi⟩
  · rw [heq] at hstate hspi ⊢
    simp only at hstate hspi
    subst hstate hspi
    refine ⟨h.sent.of_eq rfl rfl rfl rfl rfl, h.started, h.spi, fun hend => ?_⟩
    obtain ⟨hpos, hsize, hdata⟩ := h.credit hend
    exact ⟨hpos, hsize, hdata⟩
  · refine control_good (hcontrol ?_) (by simp [hstate, hspi]) (by simp [hstate]) (by simp [hstate])
    simp [h.spi.mp hready]
  · refine control_good (hcontrol ?_) (by simp [hstate, hspi]) (by simp [hstate]) (by simp [hstate])
    simp [hwas]

theorem step_good (h : d.Good) (event : Event) (hadm : d.Admissible event) :
    (d.step event).Good := by
  cases event with
  | submit header pBufDesc desc =>
    obtain ⟨tx, queued, heq, hsent⟩ := submit_eq h hadm
    rw [heq]
    exact submitEnd_good h hsent
  | interrupt =>
    simp only [step]
    split_ifs with hirq
    · by_cases hspi : d.spiState = .ready
      · exact oaIrqHandler_good h hspi
      · rw [oaIrqHandler, if_neg hspi]
        exact h
    · exact h
  | dataDone spiRxBuf timestampBytes =>
    simp only [step]
    split_ifs with hstate
    · exact (dataEnd_good h hstate (hadm hstate) timestampBytes).1
    · exact h
  | ctrlDone more =>
    have hbusy (hne : d.state ≠ .ready) : ¬d.spiState = .ready := fun hspi => hne (h.spi.mp hspi)
    simp only [step]
    cases hstate : d.state with
    | readStatus | readPhyRegister =>
      have hspi := hbusy (by simp [hstate])
      refine control_good ((h.sent_zero (by simp [hstate])).of_eq rfl rfl rfl rfl rfl) ?_ ?_ ?_
      · cases more <;> simpa using hspi
      · cases more <;> simp
      · cases more <;> simp
    | dataStart => exact (dataStart_good (h.sent_zero (by simp [hstate]))).1
    | ready | controlEnd | dataEnd | irqStart => exact h
  | reg event => exact reg_good h event

/-- Nothing that there is to do is left behind, unless a frame is queued while a client accesses a
register. -/
theorem step_settled (h : d.Good) (hsettled : d.Settled) (event : Event)
    (hadm : d.Admissible event)
    (hbetween : d.SubmitsBetween event) : (d.step event).Settled := by
  cases event with
  | submit header pBufDesc desc =>
    obtain ⟨tx, queued, heq, hsent⟩ := submit_eq h hadm
    rw [heq]
    exact submitEnd_settled hsettled hsent hbetween
  | interrupt =>
    simp only [step]
    split_ifs with hirq
    · by_cases hspi : d.spiState = .ready
      · rw [oaIrqHandler, if_pos hspi]
        exact settled_of_not_quiet (not_quiet nofun nofun)
      · rw [oaIrqHandler, if_neg hspi]
        exact hsettled
    · exact hsettled
  | dataDone spiRxBuf timestampBytes =>
    simp only [step]
    split_ifs with hstate
    · exact (dataEnd_good h hstate (hadm hstate) timestampBytes).2
    · exact hsettled
  | ctrlDone more =>
    simp only [step]
    cases hstate : d.state with
    | readStatus | readPhyRegister =>
      refine settled_of_not_quiet (not_quiet ?_ ?_)
      · cases more <;> simp
      · cases more <;> simp
    | dataStart => exact (dataStart_good (h.sent_zero (by simp [hstate]))).2
    | ready | controlEnd | dataEnd | irqStart => exact hsettled
  | reg event =>
    obtain ⟨state, spiState, irq, pendingCtrl, accesses, heq⟩ := d.regStep_eq event
    intro hquiet
    have hidle : d.Idle := by
      rcases d.regStep_state event with ⟨hstate, -⟩ | ⟨hready, -⟩ | ⟨hwas, -⟩
      · exact hsettled (by rwa [Quiet, ← hstate])
      · exact hsettled (.inl (h.spi.mp hready))
      · exact hsettled (.inr hwas)
    change (d.regStep event).Idle
    rw [heq]
    exact hidle

/-! ## The interrupt -/

/-- A client will enable the interrupt when it returns from its access. -/
def WillEnable (d : MacDevice) : Prop := ∃ access ∈ d.accesses, access.backup = true

/-- An interrupt that the driver leaves disabled is enabled by a client. -/
structure Heard (d : MacDevice) : Prop where
  pending : d.pendingCtrl = true → d.WillEnable
  quiet : d.Quiet → d.irq = true ∨ d.WillEnable

/-- A transaction goes on, or the driver is ready again and has enabled the interrupt. -/
structure GoesOn (d d' : MacDevice) : Prop where
  pendingCtrl : d'.pendingCtrl = d.pendingCtrl
  accesses : d'.accesses = d.accesses
  irq : (¬d'.Quiet ∧ d'.irq = d.irq) ∨ (d'.state = .ready ∧ d'.irq = (d.irq || !d.pendingCtrl))

theorem GoesOn.heard (h : GoesOn d d') (hpending : d.pendingCtrl = true → d.WillEnable) :
    d'.Heard := by
  have hwill : d'.WillEnable ↔ d.WillEnable := by rw [WillEnable, WillEnable, h.accesses]
  refine ⟨fun hp => hwill.mpr (hpending (h.pendingCtrl ▸ hp)), fun hquiet => ?_⟩
  rcases h.irq with ⟨hbusy, -⟩ | ⟨-, hirq⟩
  · exact absurd hquiet hbusy
  · rw [hirq, hwill]
    cases hp : d.pendingCtrl with
    | true => exact .inr (hpending hp)
    | false => exact .inl (by simp)

/-- An interrupt that is disabled stays so while data are sent or received. -/
theorem GoesOn.masked (h : GoesOn d d') (hirq : d.irq = false) : d'.irq = true → d'.Quiet := by
  rcases h.irq with ⟨-, heq⟩ | ⟨hready, -⟩
  · rw [heq, hirq]
    exact fun hfalse => absurd hfalse Bool.false_ne_true
  · exact fun _ => .inl hready

theorem dataStart_goesOn (d : MacDevice) : GoesOn d d.dataStart := by
  unfold dataStart
  simp only
  split_ifs with hsize
  · exact ⟨rfl, rfl, .inl ⟨not_quiet nofun nofun, rfl⟩⟩
  · exact ⟨rfl, rfl, .inr ⟨rfl, rfl⟩⟩

theorem chunkEnd_irq (d : MacDevice) (l : OaLocals) (spiRxBuf : Nat → UInt8) (chunkStart : Nat) :
    (d.chunkEnd l spiRxBuf chunkStart).1.pendingCtrl = d.pendingCtrl ∧
      (d.chunkEnd l spiRxBuf chunkStart).1.accesses = d.accesses ∧
      (d.chunkEnd l spiRxBuf chunkStart).1.irq = d.irq := by
  unfold chunkEnd
  simp only
  split_ifs <;> exact ⟨rfl, rfl, rfl⟩

theorem chunksEnd_irq (d : MacDevice) (l : OaLocals) (spiRxBuf : Nat → UInt8) (n : Nat) :
    (d.chunksEnd l spiRxBuf n).1.pendingCtrl = d.pendingCtrl ∧
      (d.chunksEnd l spiRxBuf n).1.accesses = d.accesses ∧
      (d.chunksEnd l spiRxBuf n).1.irq = d.irq := by
  induction n with
  | zero => exact ⟨rfl, rfl, rfl⟩
  | succ n ih =>
    rw [chunksEnd_succ]
    obtain ⟨hpending, haccesses, hirq⟩ := chunkEnd_irq (d.chunksEnd l spiRxBuf n).1
      (d.chunksEnd l spiRxBuf n).2 spiRxBuf (n * d.chunkStep)
    exact ⟨hpending.trans ih.1, haccesses.trans ih.2.1, hirq.trans ih.2.2⟩

theorem dataEnd_goesOn (d : MacDevice) (spiRxBuf timestampBytes : Nat → UInt8) :
    GoesOn d (d.dataEnd spiRxBuf timestampBytes) := by
  obtain ⟨hpending, haccesses, hirq⟩ :=
    chunksEnd_irq d { rx := { timestampBytes } } spiRxBuf d.trxChunks
  unfold dataEnd
  generalize d.chunksEnd { rx := { timestampBytes } } spiRxBuf d.trxChunks = s at *
  obtain ⟨d', l⟩ := s
  simp only
  split_ifs with hstatus hmore
  · exact ⟨hpending, haccesses, .inl ⟨not_quiet nofun nofun, hirq⟩⟩
  · exact ⟨hpending, haccesses, .inl ⟨not_quiet nofun nofun, hirq⟩⟩
  · refine ⟨hpending, haccesses, .inr ⟨rfl, ?_⟩⟩
    change (d'.irq || !d'.pendingCtrl) = _
    rw [hirq, hpending]

/-- An access to a register is heard of. -/
theorem reg_heard (h : d.Good) (hheard : d.Heard) (event : RegEvent) : (d.regStep event).Heard := by
  fun_cases regStep d event with
  | case1 backup =>
    have hwill : ∃ access ∈ d.accesses ++ [⟨backup, true⟩], access.backup = true := by
      by_cases hspi : d.spiState = .ready
      · rcases hheard.quiet (.inl (h.spi.mp hspi)) with hirq | ⟨access, hmem, hbackup⟩
        · exact ⟨_, List.mem_append_right _ List.mem_cons_self, by simp [backup, hirq]⟩
        · exact ⟨access, List.mem_append_left _ hmem, hbackup⟩
      · exact ⟨_, List.mem_append_right _ List.mem_cons_self, by simp [backup, hspi]⟩
    exact ⟨fun _ => hwill, fun _ => .inr hwill⟩
  | case2 i access haccess hready =>
    obtain ⟨hi, hget⟩ := List.getElem?_eq_some_iff.mp haccess
    have hkept (hwill : d.WillEnable) :
        ∃ a ∈ d.accesses.set i { access with waiting := false }, a.backup = true := by
      obtain ⟨a, hmem, hbackup⟩ := hwill
      obtain ⟨j, hj, rfl⟩ := List.getElem_of_mem hmem
      rcases eq_or_ne i j with rfl | hne
      · exact ⟨_, List.mem_set hi _, by simpa only [hget] using hbackup⟩
      · have hj' : j < (d.accesses.set i { access with waiting := false }).length := by simpa
        refine ⟨_, List.getElem_mem hj', ?_⟩
        rw [List.getElem_set_ne hne]
        exact hbackup
    refine ⟨fun hp => hkept (hheard.pending hp), fun _ => ?_⟩
    exact (hheard.quiet (.inl (h.spi.mp hready.2))).imp_right hkept
  | case5 i access haccess =>
    refine ⟨fun hp => absurd hp Bool.false_ne_true, fun hquiet => ?_⟩
    cases hbackup : access.backup with
    | true => exact .inl (Bool.or_true _)
    | false =>
      rcases hheard.quiet hquiet with hirq | ⟨a, hmem, ha⟩
      · exact .inl (by simp [hirq])
      · refine .inr ⟨a, ?_, ha⟩
        obtain ⟨hi, hget⟩ := List.getElem?_eq_some_iff.mp haccess
        obtain ⟨j, hj, rfl⟩ := List.getElem_of_mem hmem
        refine List.mem_eraseIdx_iff_getElem.mpr ⟨j, hj, ?_, rfl⟩
        rintro rfl
        rw [hget, hbackup] at ha
        cases ha
  | case7 hstate => exact ⟨hheard.pending, fun _ => hheard.quiet (.inr hstate)⟩
  | case3 | case4 | case6 | case8 => exact hheard

theorem step_heard (h : d.Good) (hheard : d.Heard) (event : Event) (hadm : d.Admissible event) :
    (d.step event).Heard := by
  have hbusy {d' : MacDevice} (hpending : d'.pendingCtrl = d.pendingCtrl)
      (haccesses : d'.accesses = d.accesses) (hquiet : ¬d'.Quiet) : d'.Heard := by
    refine ⟨fun hp => ?_, fun hq => absurd hq hquiet⟩
    rw [WillEnable, haccesses]
    exact hheard.pending (hpending ▸ hp)
  cases event with
  | submit header pBufDesc desc =>
    obtain ⟨tx, queued, heq, -⟩ := submit_eq h hadm
    rw [heq, submitEnd_eq]
    split_ifs
    · exact (dataStart_goesOn _).heard hheard.pending
    · exact ⟨hheard.pending, hheard.quiet⟩
  | interrupt =>
    simp only [step]
    split_ifs with hirq
    · by_cases hspi : d.spiState = .ready
      · rw [oaIrqHandler, if_pos hspi]
        exact hbusy rfl rfl (by simp [Quiet])
      · rw [oaIrqHandler, if_neg hspi]
        exact hheard
    · exact hheard
  | dataDone spiRxBuf timestampBytes =>
    simp only [step]
    split_ifs
    · exact (dataEnd_goesOn d _ _).heard hheard.pending
    · exact hheard
  | ctrlDone more =>
    simp only [step]
    cases hstate : d.state with
    | readStatus | readPhyRegister => exact hbusy rfl rfl (by cases more <;> simp [Quiet])
    | dataStart => exact (dataStart_goesOn d).heard hheard.pending
    | ready | controlEnd | dataEnd | irqStart => exact hheard
  | reg event => exact reg_heard h hheard event

/-- The interrupt is disabled while data are sent or received. -/
def Masked (d : MacDevice) : Prop := d.irq = true → d.Quiet

theorem Masked.irq (h : d.Masked) (hbusy : ¬d.Quiet) : d.irq = false :=
  Bool.eq_false_iff.mpr fun hirq => hbusy (h hirq)

/-- The interrupt is disabled while data are sent or received, unless a client returns from an
access in the meantime. -/
theorem step_masked (h : d.Good) (hmasked : d.Masked) (event : Event) (hadm : d.Admissible event)
    (hfinish : d.FinishesQuiet event) : (d.step event).Masked := by
  cases event with
  | submit header pBufDesc desc =>
    obtain ⟨tx, queued, heq, -⟩ := submit_eq h hadm
    rw [heq, submitEnd_eq]
    split_ifs
    · exact (dataStart_goesOn _).masked rfl
    · exact hmasked
  | interrupt =>
    simp only [step]
    split_ifs with hirq
    · by_cases hspi : d.spiState = .ready
      · rw [oaIrqHandler, if_pos hspi]
        exact fun hfalse => absurd hfalse Bool.false_ne_true
      · rw [oaIrqHandler, if_neg hspi]
        exact hmasked
    · exact hmasked
  | dataDone spiRxBuf timestampBytes =>
    simp only [step]
    split_ifs with hstate
    · exact (dataEnd_goesOn d _ _).masked (hmasked.irq (by simp [Quiet, hstate]))
    · exact hmasked
  | ctrlDone more =>
    simp only [step]
    cases hstate : d.state with
    | readStatus | readPhyRegister =>
      have hirq := hmasked.irq (by simp [Quiet, hstate])
      exact fun htrue => absurd (hirq ▸ htrue) Bool.false_ne_true
    | dataStart => exact (dataStart_goesOn d).masked (hmasked.irq (by simp [Quiet, hstate]))
    | ready | controlEnd | dataEnd | irqStart => exact hmasked
  | reg event =>
    change (d.regStep event).Masked
    fun_cases regStep d event with
    | case1 => exact fun hfalse => absurd hfalse Bool.false_ne_true
    | case2 => exact fun _ => .inr rfl
    | case5 => exact fun _ => hfinish
    | case7 => exact fun _ => .inl rfl
    | case3 | case4 | case6 | case8 => exact hmasked

/-! ## Runs -/

theorem init_good (memory : Nat → Nat → UInt8) : (init memory).Good := by
  have hentries : (init memory).tx.txQueue.entries = [] := MacQueue.init_entries 5
  have hpending : (init memory).tx.pending 0 = [] := by
    rw [TxSide.pending, hentries]
    rfl
  have hposition : (init memory).tx.At 0 := by
    refine ⟨MacQueue.init_inv (by decide), ?_, Nat.zero_le _, rfl, ?_, ?_, fun _ => rfl⟩
    · exact (by decide : 5 * 1522 < 0x100000000)
    · simp [hentries]
    · simp [hpending]
  have hcps : 3 ≤ (init memory).oaCps ∧ (init memory).oaCps ≤ 6 := (by decide : 3 ≤ 6 ∧ 6 ≤ 6)
  have hroom : 0 < (init memory).oaMaxChunkCount ∧
      (init memory).oaMaxChunkCount * (init memory).chunkStep ≤ bufferSize :=
    (by decide : 0 < 16 ∧ 16 * (4 + 1 <<< 6) ≤ 2000)
  have hstate : (init memory).state = .ready := rfl
  refine ⟨⟨hcps, hroom, hposition, ?_, trivial⟩, by simp [hstate], ?_, by simp [hstate]⟩
  · rw [show (init memory).inFlight = 0 from rfl, hpending]
    exact Progress.start []
  · exact iff_of_true rfl rfl

/-- Every event of the run is admissible where it happens. -/
def Conforming (memory : Nat → Nat → UInt8) (events : List Event) : Prop :=
  Along step Admissible (init memory) events

instance (memory : Nat → Nat → UInt8) (events : List Event) :
    Decidable (Conforming memory events) :=
  inferInstanceAs (Decidable (Along step Admissible (init memory) events))

theorem run_good (memory : Nat → Nat → UInt8) (events : List Event)
    (h : Conforming memory events) : (run memory events).Good := by
  have hstep : ∀ (d : MacDevice) (event : Event), d.Good → d.Admissible event →
      (d.step event).Good := fun _ event hgood hadm => step_good hgood event hadm
  exact foldl_invariant hstep (init_good memory) h

theorem run_heard (memory : Nat → Nat → UInt8) (events : List Event)
    (h : Conforming memory events) : (run memory events).Heard := by
  have hstep : ∀ (d : MacDevice) (event : Event), d.Good ∧ d.Heard → d.Admissible event →
      (d.step event).Good ∧ (d.step event).Heard := fun _ event hd hadm =>
    ⟨step_good hd.1 event hadm, step_heard hd.1 hd.2 event hadm⟩
  have hinit : (init memory).Heard := ⟨fun hp => absurd hp Bool.false_ne_true, fun _ => .inl rfl⟩
  exact (foldl_invariant hstep ⟨init_good memory, hinit⟩ h).2

theorem run_masked (memory : Nat → Nat → UInt8) (events : List Event)
    (h : Conforming memory events) (hfinish : Along step FinishesQuiet (init memory) events) :
    (run memory events).Masked := by
  have hstep : ∀ (d : MacDevice) (event : Event), d.Good ∧ d.Masked →
      d.Admissible event ∧ d.FinishesQuiet event → (d.step event).Good ∧ (d.step event).Masked :=
    fun _ event hd hadm =>
      ⟨step_good hd.1 event hadm.1, step_masked hd.1 hd.2 event hadm.1 hadm.2⟩
  exact (foldl_invariant hstep ⟨init_good memory, fun _ => .inl rfl⟩ (along_and h hfinish)).2

theorem run_settled (memory : Nat → Nat → UInt8) (events : List Event)
    (h : Conforming memory events) (hbetween : Along step SubmitsBetween (init memory) events) :
    (run memory events).Settled := by
  have hstep : ∀ (d : MacDevice) (event : Event), d.Good ∧ d.Settled →
      d.Admissible event ∧ d.SubmitsBetween event → (d.step event).Good ∧ (d.step event).Settled :=
    fun _ event hd hadm =>
      ⟨step_good hd.1 event hadm.1, step_settled hd.1 hd.2 event hadm.1 hadm.2⟩
  have hinit : (init memory).Settled := fun _ => ⟨.inl rfl, .inr rfl⟩
  exact (foldl_invariant hstep ⟨init_good memory, hinit⟩ (along_and h hbetween)).2

/-- Every frame that has been queued has been sent whole, or is still in the queue, in order; what
is open on the wire is the start of the first one that has not been sent whole. Each chunk sent may
follow the ones before it. -/
theorem transmitted_run (memory : Nat → Nat → UInt8) (events : List Event)
    (h : Conforming memory events) :
    (∃ rest, rest <:+ (run memory events).tx.txQueue.entries.map
          (fun e => ((run memory events).tx.descs e.pBufDesc).frame) ∧
        (Reassembly.decode ((run memory events).wire.filterMap macChunk)).records.map
          Prod.snd ++ rest = (run memory events).queued ∧
        ∀ f ∈ (Reassembly.decode ((run memory events).wire.filterMap macChunk)).opened,
          ∃ g ∈ rest.head?, f.2 <+: g ∧ f.2.length < g.length) ∧
      Along Reassembly.step Reassembly.Fits Reassembly.init
        ((run memory events).wire.filterMap macChunk) := by
  have hsent := (run_good memory events h).sent
  generalize run memory events = d at hsent
  refine ⟨⟨d.tx.pending d.inFlight, ?_, hsent.progress.sent, ?_⟩, hsent.conforms⟩
  · exact (List.drop_suffix _ _).map _
  · intro f hf
    have hopened := hsent.progress.opened
    rw [Option.mem_def.mp hf, Option.map_some] at hopened
    split_ifs at hopened with hoff
    obtain ⟨g, hg, heq⟩ := Option.map_eq_some_iff.mp hopened.symm
    have hlt := hsent.position.offset g hg
    refine ⟨g, hg, heq ▸ List.take_prefix _ _, ?_⟩
    rw [← heq, List.length_take]
    omega

/-- The frames of the tests, and a MAC that has room for them and nothing to receive. -/
def testFrame (byte : UInt8) : BufDesc := { pBuf := fun _ => byte, bufSize := 60, trxSize := 60 }

def accepts : Nat → UInt8 := fun i => [32, 0, 0, 63].getD (i % 4) 0

/-- Two frames are sent, the second one of them behind the first, and a register is accessed. -/
def twoFrames : List Event :=
  [.submit 0 0 (testFrame 1), .submit 0 1 (testFrame 2), .dataDone accepts fun _ => 0, .reg .start,
    .dataDone accepts fun _ => 0, .reg (.go 0), .reg .done, .reg (.finish 0)]

theorem transmitted_run_two :
    (Reassembly.decode ((run (fun _ _ => 0) twoFrames).wire.filterMap macChunk)).records.map
      Prod.snd = [List.replicate 60 1, List.replicate 60 2] := by
  have hconforming : Conforming (fun _ _ => 0) twoFrames := by decide +kernel
  obtain ⟨⟨rest, hrest, hsent, -⟩, -⟩ := transmitted_run _ _ hconforming
  have hnone : (run (fun _ _ => 0) twoFrames).tx.txQueue.entries = [] := by decide +kernel
  rw [hnone, List.map_nil, List.suffix_nil] at hrest
  rw [hrest, List.append_nil] at hsent
  exact hsent.trans (by decide +kernel)

/-- The driver and its side of the serial interface are ready together. As long as no data are sent
or received, the interrupt is enabled, or will be by a client that returns from an access to a
register; a client that returns while data are sent or received enables it all the same. A driver
that is ready has nothing to send that the MAC has room for and nothing to receive, unless a frame
was submitted while the transaction of an access was going on. A transaction with data fits into its
buffer and has no more chunks with data than the MAC has room for. -/
theorem handshake_run (memory : Nat → Nat → UInt8) (events : List Event)
    (h : Conforming memory events) :
    ((run memory events).spiState = .ready ↔ (run memory events).state = .ready) ∧
    ((run memory events).Quiet → (run memory events).irq = true ∨
      ∃ access ∈ (run memory events).accesses, access.backup = true) ∧
    (Along step FinishesQuiet (init memory) events →
      (run memory events).irq = true → (run memory events).Quiet) ∧
    (Along step SubmitsBetween (init memory) events → (run memory events).state = .ready →
      ((run memory events).tx.txQueue.entries = [] ∨ (run memory events).oaTxc = 0) ∧
      ((run memory events).rx.pRxQueue.queueIsEmpty = true ∨ (run memory events).oaRca = 0)) ∧
    ((run memory events).state = .dataEnd → (run memory events).InCredit) := by
  have hgood := run_good memory events h
  refine ⟨hgood.spi, (run_heard memory events h).quiet, run_masked memory events h,
    fun hbetween hready => ?_, hgood.credit⟩
  have hidle := run_settled memory events h hbetween (.inl hready)
  rwa [Idle, MacQueue.queueIsEmpty_iff hgood.sent.position.queue] at hidle

theorem handshake_run_two : (run (fun _ _ => 0) twoFrames).irq = true ∧
    (run (fun _ _ => 0) twoFrames).tx.txQueue.entries = [] := by
  have hconforming : Conforming (fun _ _ => 0) twoFrames := by decide +kernel
  have hready : (run (fun _ _ => 0) twoFrames).state = .ready := by decide +kernel
  obtain ⟨-, hquiet, -, hidle, -⟩ := handshake_run _ _ hconforming
  refine ⟨(hquiet (.inl hready)).resolve_right ?_, ?_⟩
  · decide +kernel
  · exact (hidle (by decide +kernel) hready).1.resolve_right (by decide +kernel)

end MacDevice

end BmCore.Drivers
