import BmCore.Drivers.DynamicTable
import BmCore.Drivers.RxRuns
import BmCore.Drivers.TxRuns

/-!
# Buffers that are sent

`adin2111_SubmitTxBuffer` of `drivers/adin2111/adin2111.c` queues a frame for one port or for both;
then the same descriptor is in the queue twice. `adin2111_netdevice_send` of `bm_adin2111.c`
allocates the descriptor, and `tx_complete` frees it when it is called for it. Between the two
submissions of a frame that is sent to both ports anything may happen to the driver.
-/
namespace BmCore.Drivers
open Library

/-- The value of an `adin2111_TxPort_e`. -/
def TxPort.value : TxPort → Nat
  | .port1 => 0
  | .port2 => 1
  | .auto => 2
  | .flood => 3

/-- `(adin2111_TxPort_e)port` -/
def TxPort.ofValue (port : Nat) : TxPort :=
  if port = 0 then .port1 else if port = 1 then .port2 else if port = 2 then .auto else .flood

/-- `driver_tx_port` -/
def driverTxPort (portNum : Nat) : TxPort :=
  if portNum = 1 then .port1 else if portNum = 2 then .port2 else .flood

/-- The `VALUE16` of an `adi_mac_FrameHeader_t` with `PORT` and `EGRESS_CAPTURE`. -/
def frameHeader (port egressCapt : Nat) : UInt16 :=
  UInt16.ofNat (packBits [1, 5, 2] [port, 0, egressCapt])

/-- `cbRx`, the callback for `ADI_MAC_EVT_DYN_TBL_UPDATE` -/
def cbRx (t : DynamicTable) : RxCall → DynamicTable
  | .dynTblUpdate _ port addr => t.learn (.ofValue port) addr
  | .receive _ _ _ => t

/-- A frame to be sent to both ports that has been submitted for the first one. -/
structure SecondHalf where
  pBufDesc : Nat
  /-- `refCount` has been set to 2 -/
  counted : Bool
  deriving DecidableEq, Repr

/-- `adin2111_DeviceStruct_t`, and the client of it in `bm_adin2111.c` -/
structure Adin2111 where
  mac : MacDevice
  dynamicTable : DynamicTable := .init
  portEnabled : TxPort → Bool := fun _ => true
  /-- the client is between the submissions of a frame for the two ports -/
  flooding : Option SecondHalf := none
  /-- the descriptors that `bm_malloc` has returned so far -/
  allocated : List Nat := []
  /-- the calls of `free_tx_buffer` for submissions that failed -/
  failed : List Nat := []
  /-- the frames to be sent to both ports while neither was enabled -/
  unsent : List Nat := []
  /-- the frames counted for both ports of which the second one was disabled in the meantime -/
  stranded : List Nat := []

namespace Adin2111

/-- `macDriverEntry.SubmitTxBuffer` for a port -/
def submitTo (n : Adin2111) (port : TxPort) (pBufDesc : Nat) (desc : BufDesc) :
    EthResult × Adin2111 :=
  let desc := { desc with port := port.value }
  let mac := { n.mac with tx := { n.mac.tx with
    descs := Function.update n.mac.tx.descs pBufDesc desc } }
  let (result, mac) := mac.submitTxBuffer (frameHeader port.value desc.egressCapt) pBufDesc
  (result, { n with mac })

/-- `txPort` of `adin2111_SubmitTxBuffer` -/
def txPort (n : Adin2111) (port : TxPort) (desc : BufDesc) : TxPort :=
  if port = .port1 ∨ port = .port2 then port
  else if desc.pBuf 0 &&& 1 ≠ 0 then .flood
  else n.dynamicTable.lookup (peek desc.pBuf 0 6)

/-- `adin2111_SubmitTxBuffer`. There is no result yet when port 2 is still to come: whether it is
enabled is then looked at again. -/
def submitTxBuffer (n : Adin2111) (port : TxPort) (pBufDesc : Nat) (desc : BufDesc) :
    Option EthResult × Adin2111 :=
  let desc := { desc with refCount := 1 }
  if n.txPort port desc = .flood then
    if n.mac.tx.txQueue.queueAvailable < 2 then (some .queueFull, n)
    else if n.portEnabled .port1 then
      let desc := if n.portEnabled .port2 then { desc with refCount := 2 } else desc
      let (result, n) := n.submitTo .port1 pBufDesc desc
      if result ≠ .success then (some result, n)
      else (none, { n with flooding := some ⟨pBufDesc, n.portEnabled .port2⟩ })
    else if n.portEnabled .port2 then
      let (result, n) := n.submitTo .port2 pBufDesc desc
      (some result, n)
    else (some .success, { n with unsent := n.unsent ++ [pBufDesc] })
  else
    let (result, n) := n.submitTo (n.txPort port desc) pBufDesc desc
    (some result, n)

/-- A frame that could not be submitted is freed. -/
def submitted (n : Adin2111) (pBufDesc : Nat) (result : EthResult) : Adin2111 :=
  if result ≠ .success then { n with failed := n.failed ++ [pBufDesc] } else n

/-- `adin2111_netdevice_send`, up to where it goes on with `resume`. `alloc` is what `bm_malloc` and
`aligned_malloc` have returned, with `memory` behind the buffer. -/
def send (n : Adin2111) (alloc : Option Nat) (memory : Nat → UInt8) (data : List UInt8)
    (port : Nat) : BmErr × Adin2111 :=
  match alloc with
  | none => (.enomem, n)
  | some pBufDesc =>
    let desc : BufDesc :=
      { pBuf := blit memory 0 data, bufSize := 0, trxSize := data.length % 0x100000000 }
    let n := { n with allocated := n.allocated ++ [pBufDesc] }
    match n.submitTxBuffer (driverTxPort port) pBufDesc desc with
    | (some result, n) => (.ok, n.submitted pBufDesc result)
    | (none, n) => (.ok, n)

/-- The rest of `adin2111_netdevice_send` for a frame that is sent to both ports. -/
def resume (n : Adin2111) : Adin2111 :=
  match n.flooding with
  | none => n
  | some ⟨pBufDesc, counted⟩ =>
    let n := { n with flooding := none }
    if n.portEnabled .port2 then
      let (result, n) := n.submitTo .port2 pBufDesc (n.mac.tx.descs pBufDesc)
      n.submitted pBufDesc result
    else if counted then { n with stranded := n.stranded ++ [pBufDesc] }
    else n

/-- The driver goes on, and calls back for what it has received. -/
def serve (n : Adin2111) (event : MacDevice.Event) : Adin2111 :=
  let mac := n.mac.step event
  { n with
    mac
    dynamicTable := (mac.rx.calls.drop n.mac.rx.calls.length).foldl cbRx n.dynamicTable }

/-- What happens to the device. -/
inductive Event where
  | send (alloc : Option Nat) (memory : Nat → UInt8) (data : List UInt8) (port : Nat)
  /-- the client comes to the other port -/
  | resume
  | interrupt
  | dataDone (spiRxBuf timestampBytes : Nat → UInt8)
  | ctrlDone (more : Bool)
  | reg (event : MacDevice.RegEvent)
  /-- `adin2111_EnablePort` or `adin2111_DisablePort` has changed the state of the PHY -/
  | setPort (port : TxPort) (enabled : Bool)
  | ageTick

/-- The client sends nothing else while it is between two submissions. -/
def step (n : Adin2111) : Event → Adin2111
  | .send alloc memory data port =>
    if n.flooding = none then (n.send alloc memory data port).2 else n
  | .resume => n.resume
  | .interrupt => n.serve .interrupt
  | .dataDone spiRxBuf timestampBytes => n.serve (.dataDone spiRxBuf timestampBytes)
  | .ctrlDone more => n.serve (.ctrlDone more)
  | .reg event => n.serve (.reg event)
  | .setPort port enabled => { n with portEnabled := Function.update n.portEnabled port enabled }
  | .ageTick => { n with dynamicTable := n.dynamicTable.ageTick }

/-- The device after `adin2111_netdevice_enable`. -/
def init (memory : Nat → Nat → UInt8) : Adin2111 := { mac := .init memory }

def run (memory : Nat → Nat → UInt8) (events : List Event) : Adin2111 :=
  events.foldl step (init memory)

/-- The calls of `free_tx_buffer`: for submissions that failed and by `tx_complete`. -/
def freed (n : Adin2111) : List Nat := n.failed ++ n.mac.txCalls.map Prod.snd

/-- A frame that waits for its submission for port 2 and has been counted for it. -/
def second (n : Adin2111) : Option Nat := (n.flooding.filter (·.counted)).map (·.pBufDesc)

/-- `bm_malloc` returns what is not in use, the MAC accepts its chunks, and port 2 has not been
enabled between the submissions of a frame that is not counted for it. -/
def Admissible (n : Adin2111) : Event → Prop
  | .send (some pBufDesc) _ _ _ => n.freed.count pBufDesc = n.allocated.count pBufDesc
  | .resume => ∀ half ∈ n.flooding, half.counted = false → n.portEnabled .port2 = false
  | .dataDone spiRxBuf _ => n.mac.state = .dataEnd → n.mac.Accepted spiRxBuf n.mac.trxChunks
  | _ => True

instance (n : Adin2111) (event : Event) : Decidable (n.Admissible event) :=
  match event with
  | .send (some pBufDesc) _ _ _ =>
    inferInstanceAs (Decidable (n.freed.count pBufDesc = n.allocated.count pBufDesc))
  | .resume => inferInstanceAs (Decidable (∀ half ∈ n.flooding,
      half.counted = false → n.portEnabled .port2 = false))
  | .dataDone spiRxBuf _ => inferInstanceAs (Decidable
      (n.mac.state = .dataEnd → n.mac.Accepted spiRxBuf n.mac.trxChunks))
  | .send none _ _ _ | .interrupt | .ctrlDone _ | .reg _ | .setPort _ _ | .ageTick =>
    .isTrue trivial

/-- Every event of the run is admissible where it happens. -/
def Conforming (memory : Nat → Nat → UInt8) (events : List Event) : Prop :=
  Along step Admissible (init memory) events

instance (memory : Nat → Nat → UInt8) (events : List Event) :
    Decidable (Conforming memory events) :=
  inferInstanceAs (Decidable (Along step Admissible (init memory) events))

end Adin2111

/-! ## Descriptors in the queue -/

namespace TxSide

theorem fillCurrent_queue (t : TxSide) (chunkSize : Nat) (h : OaTxHeader) (buf : Nat → UInt8)
    (pBuf : Nat) : (t.fillCurrent chunkSize h buf pBuf).1.txQueue = t.txQueue ∧
      (t.fillCurrent chunkSize h buf pBuf).1.descs = t.descs := by
  unfold fillCurrent
  simp only
  rw [apply_ite Prod.fst, apply_ite TxSide.txQueue, apply_ite TxSide.descs, ite_self, ite_self]
  exact ⟨rfl, rfl⟩

/-- Creating chunks leaves the queue and the descriptors alone. -/
theorem oaCreateNextChunk_queue (t : TxSide) (oaCps : Nat) (norx : Bool) (buf : Nat → UInt8)
    (pBuf : Nat) (txEn : Bool) :
    (t.oaCreateNextChunk oaCps norx buf pBuf txEn).1.txQueue = t.txQueue ∧
      (t.oaCreateNextChunk oaCps norx buf pBuf txEn).1.descs = t.descs := by
  fun_cases oaCreateNextChunk t oaCps norx buf pBuf txEn with
  | case1 chunkSize h hen t₁ bsize h₁ buf₁ heq hmore t₂ h₂ buf₂ hnext =>
    have hcurrent := t.fillCurrent_queue chunkSize h buf pBuf
    obtain rfl : _ = t₂ := congrArg Prod.fst hnext
    rw [heq] at hcurrent
    exact hcurrent
  | case2 chunkSize h hen t₁ bsize h₁ buf₁ heq =>
    have hcurrent := t.fillCurrent_queue chunkSize h buf pBuf
    rw [heq] at hcurrent
    exact hcurrent
  | case3 => exact ⟨rfl, rfl⟩

theorem oaSpiProcess_queue (t : TxSide) (oaTxc oaRca oaCps oaMaxChunkCount : Nat)
    (irqStart norx : Bool) (buf : Nat → UInt8) :
    (t.oaSpiProcess oaTxc oaRca oaCps oaMaxChunkCount irqStart norx buf).1.txQueue = t.txQueue ∧
      (t.oaSpiProcess oaTxc oaRca oaCps oaMaxChunkCount irqStart norx buf).1.descs = t.descs := by
  have hcreate (txEn : Nat → Bool) (n : Nat) :
      (t.createChunks oaCps norx buf txEn n).1.txQueue = t.txQueue ∧
        (t.createChunks oaCps norx buf txEn n).1.descs = t.descs := by
    induction n with
    | zero => exact ⟨rfl, rfl⟩
    | succ n ih =>
      simp only [createChunks, List.range_succ, List.foldl_append, List.foldl_cons,
        List.foldl_nil] at ih ⊢
      obtain ⟨hqueue, hdescs⟩ := oaCreateNextChunk_queue _ oaCps norx _ _ (txEn n)
      exact ⟨hqueue.trans ih.1, hdescs.trans ih.2⟩
  exact hcreate _ _

end TxSide

namespace MacDevice
variable {d d' : MacDevice} {second : Option Nat} {stranded : List Nat} {owed : Nat → Nat}

/-- How often a descriptor is in the queue. -/
def copies (d : MacDevice) (p : Nat) : Nat := (d.tx.txQueue.entries.map (·.pBufDesc)).count p

/-- How often a descriptor is in the queue, still has to be put there, or was to be put there. -/
def holders (d : MacDevice) (second : Option Nat) (stranded : List Nat) (p : Nat) : Nat :=
  d.copies p + (if second = some p then 1 else 0) + stranded.count p

/-- Every descriptor that is held has a reference for each of its holders; every other one has been
called back for as often as it is owed. A frame that is still to be put into the queue may be. -/
structure Counts (second : Option Nat) (stranded : List Nat) (owed : Nat → Nat) (d : MacDevice) :
    Prop where
  refs : ∀ p, d.holders second stranded p ≠ 0 →
    (d.tx.descs p).refCount = d.holders second stranded p
  calls : ∀ p, (d.txCalls.map Prod.snd).count p +
    (if d.holders second stranded p = 0 then 0 else 1) = owed p
  once : ∀ p, (if second = some p then 1 else 0) + stranded.count p ≤ 1
  room : ∀ p, second = some p → minFrameSize ≤ (d.tx.descs p).trxSize ∧
    (d.tx.descs p).trxSize ≤ maxFrameSize ∧ d.tx.txQueue.queueIsFull = false

/-- The queue, the descriptors and the calls are as they were. -/
structure SameQueue (d d' : MacDevice) : Prop where
  txQueue : d'.tx.txQueue = d.tx.txQueue
  descs : d'.tx.descs = d.tx.descs
  txCalls : d'.txCalls = d.txCalls

theorem SameQueue.trans {d'' : MacDevice} (h : SameQueue d d') (h' : SameQueue d' d'') :
    SameQueue d d'' :=
  ⟨h'.txQueue.trans h.txQueue, h'.descs.trans h.descs, h'.txCalls.trans h.txCalls⟩

theorem Counts.of_same (h : d.Counts second stranded owed) (hsame : SameQueue d d') :
    d'.Counts second stranded owed := by
  obtain ⟨hqueue, hdescs, hcalls⟩ := hsame
  have hcopies (p : Nat) : d'.holders second stranded p = d.holders second stranded p := by
    rw [holders, holders, copies, copies, hqueue]
  refine ⟨fun p hp => ?_, fun p => ?_, h.once, fun p hp => ?_⟩
  · rw [hcopies] at hp ⊢
    rw [hdescs]
    exact h.refs p hp
  · rw [hcopies, hcalls]
    exact h.calls p
  · rw [hdescs, hqueue]
    exact h.room p hp

/-- The oldest entry gives up its reference. -/
theorem Counts.txDone (h : d.Counts second stranded owed) (hinv : d.tx.txQueue.Inv)
    (hne : d.tx.txQueue.queueIsEmpty = false) (hsmall : d.tx.txQueue.numEntries < 0xFFFFFFFF)
    (event : UInt32) : (d.txDone event).Counts second stranded owed := by
  obtain ⟨q, hq⟩ : ∃ q, q = (d.tx.txQueue.pEntries d.tx.txQueue.tail).pBufDesc := ⟨_, rfl⟩
  have hentries := MacQueue.entries_queueRemove hinv hne
  have hcopies (p : Nat) : d.copies p = (d.txDone event).copies p + if p = q then 1 else 0 := by
    rw [copies, hentries, List.map_cons, List.count_cons, ← hq]
    change _ = (d.tx.txQueue.queueRemove.entries.map (·.pBufDesc)).count p + _
    rcases eq_or_ne p q with rfl | hpq
    · simp
    · simp [hpq, hpq.symm]
  have hholders (p : Nat) : d.holders second stranded p =
      (d.txDone event).holders second stranded p + if p = q then 1 else 0 := by
    rw [holders, holders, hcopies]
    omega
  have hheld : d.holders second stranded q ≠ 0 := by
    rw [hholders, if_pos rfl]
    exact Nat.succ_ne_zero _
  have hbound : d.holders second stranded q < 0x100000000 := by
    have hle : d.copies q ≤ d.tx.txQueue.entries.length := by
      have hcount := List.count_le_length (a := q) (l := d.tx.txQueue.entries.map (·.pBufDesc))
      simpa [copies] using hcount
    rw [MacQueue.entries_length] at hle
    have hlt := MacQueue.queueCount_lt hinv
    have honce := h.once q
    rw [holders]
    omega
  have href : sub32 (d.tx.descs q).refCount 1 = (d.txDone event).holders second stranded q := by
    rw [h.refs q hheld, sub32_eq hbound (by omega), hholders q, if_pos rfl, Nat.add_sub_cancel]
  have hdesc (p : Nat) : (d.txDone event).tx.descs p =
      if p = q then { d.tx.descs q with refCount := (d.txDone event).holders second stranded q }
      else d.tx.descs p := by
    rw [← href, hq]
    simp only [MacDevice.txDone, Function.update_apply]
  have hcalls : (d.txDone event).txCalls = if (d.txDone event).holders second stranded q = 0 then
      d.txCalls ++ [(event, q)] else d.txCalls := by
    rw [← href, hq]
    simp only [MacDevice.txDone]
  refine ⟨fun p hp => ?_, fun p => ?_, h.once, fun p hp => ?_⟩
  · rw [hdesc]
    split_ifs with hpq
    · rw [hpq]
    · have hsame := hholders p
      rw [if_neg hpq, Nat.add_zero] at hsame
      rw [← hsame] at hp ⊢
      exact h.refs p hp
  · rw [← h.calls p, hcalls, hholders p]
    split_ifs with hlast hpq hnone
    all_goals simp_all
    all_goals grind
  · have hroom := h.room p hp
    refine ⟨?_, ?_, MacQueue.queueIsFull_queueRemove hinv hne⟩
    · rw [hdesc]
      split_ifs with hpq
      · exact hpq ▸ hroom.1
      · exact hroom.1
    · rw [hdesc]
      split_ifs with hpq
      · exact hpq ▸ hroom.2.1
      · exact hroom.2.1

theorem startData_same (d : MacDevice) (spiState : SpiState) :
    SameQueue d (d.startData spiState) := by
  obtain ⟨hqueue, hdescs⟩ := d.tx.oaSpiProcess_queue d.oaTxc d.oaRca d.oaCps d.oaMaxChunkCount false
    d.rx.pRxQueue.queueIsEmpty d.spiTxBuf
  exact ⟨hqueue, hdescs, rfl⟩

theorem dataStart_same (d : MacDevice) : SameQueue d d.dataStart := by
  obtain ⟨hqueue, hdescs, -⟩ := startData_same d .txFrame
  fun_cases dataStart d with
  | case1 => exact ⟨hqueue, hdescs, rfl⟩
  | case2 => exact ⟨hqueue, hdescs, rfl⟩

theorem submitEnd_same (d : MacDevice) : SameQueue d d.submitEnd := by
  fun_cases submitEnd d with
  | case1 =>
    fun_cases processTxQueue d with
    | case1 =>
      obtain ⟨hqueue, hdescs, hcalls⟩ := dataStart_same { d with irq := false, state := .dataStart }
      exact ⟨hqueue, hdescs, hcalls⟩
    | case2 | case3 => exact ⟨rfl, rfl, rfl⟩
  | case2 => exact ⟨rfl, rfl, rfl⟩

/-- A chunk that has been accepted gives up the frame that it ends. -/
theorem chunkEnd_same {spiRxBuf : Nat → UInt8} {i : Nat}
    (hgood : checkFooter (hton32Word (peek spiRxBuf (i * d.chunkStep + d.chunkSize) 4)) = .good)
    (l : OaLocals) : ∃ event, SameQueue (if d.endsFrame i then d.txDone event else d)
      (d.chunkEnd l spiRxBuf (i * d.chunkStep)).1 := by
  obtain ⟨event, hevent⟩ : ∃ event, event = (d.rx.footerEnd l.rx
    (hton32Word (peek spiRxBuf (i * d.chunkStep + d.chunkSize) 4))
    (fun j => spiRxBuf (i * d.chunkStep + j)) d.chunkSize).2.event := ⟨_, rfl⟩
  have hheader : (txHeader (peek d.spiTxBuf (i * d.chunkStep) adiSpiHeaderSize)).ev =
      d.endsFrame i := rfl
  refine ⟨event, ?_⟩
  simp only [chunkEnd, hgood, if_true, hheader, ← hevent]
  split_ifs
  · constructor <;> simp only [txDone]
  · exact ⟨rfl, rfl, rfl⟩

theorem chunksEnd_counts (h : d.Counts second stranded owed) {spiRxBuf : Nat → UInt8} {N : Nat}
    (hat : d.tx.At (d.ends N)) (hgood : d.Accepted spiRxBuf N) (l : OaLocals) {n : Nat}
    (hn : n ≤ N) : (d.chunksEnd l spiRxBuf n).1.Counts second stranded owed := by
  induction n with
  | zero => exact h
  | succ n ih =>
    have hcounts := ih (Nat.le_of_succ_le hn)
    obtain ⟨hsame, -, k, hk, hat', -⟩ := chunksEnd_spec hat hgood l (Nat.le_of_succ_le hn)
    rw [chunksEnd_succ]
    generalize d.chunksEnd l spiRxBuf n = s at hcounts hsame hat'
    obtain ⟨event, hend⟩ := chunkEnd_same (hsame.accepted hgood n hn) s.2
    rw [hsame.chunkStep, hsame.endsFrame] at hend
    refine Counts.of_same ?_ hend
    split_ifs with hev
    · have hle := d.ends_le hn
      rw [ends_succ, hev, Bool.toNat_true] at hle
      obtain ⟨k', rfl⟩ : ∃ k', k = k' + 1 := ⟨k - 1, by omega⟩
      have hsmall := hat'.small
      exact hcounts.txDone hat'.queue hat'.not_empty (by omega) event
    · exact hcounts

/-- What the driver does on its own keeps the counts. -/
theorem step_counts (h : d.Counts second stranded owed) (hgood : d.Good) {event : Event}
    (hadm : d.Admissible event) (hsubmit : ∀ header p desc, event ≠ .submit header p desc) :
    (d.step event).Counts second stranded owed := by
  cases event with
  | submit header p desc => exact absurd rfl (hsubmit header p desc)
  | interrupt =>
    simp only [step, oaIrqHandler]
    split_ifs
    · exact h.of_same ⟨rfl, rfl, rfl⟩
    · exact h
    · exact h
  | dataDone spiRxBuf timestampBytes =>
    simp only [step]
    split_ifs with hstate
    · have hsent := hgood.sent
      rw [inFlight, if_pos hstate] at hsent
      have hchunks := chunksEnd_counts h hsent.position (hadm hstate) { rx := { timestampBytes } }
        (Nat.le_refl _)
      unfold dataEnd
      generalize d.chunksEnd { rx := { timestampBytes } } spiRxBuf d.trxChunks = s at hchunks ⊢
      simp only
      split_ifs
      · exact hchunks.of_same ⟨rfl, rfl, rfl⟩
      · exact hchunks.of_same (startData_same _ _)
      · exact hchunks.of_same ⟨rfl, rfl, rfl⟩
    · exact h
  | ctrlDone more =>
    simp only [step]
    cases d.state with
    | dataStart => exact h.of_same (dataStart_same d)
    | readStatus | readPhyRegister => exact h.of_same ⟨rfl, rfl, rfl⟩
    | ready | controlEnd | dataEnd | irqStart => exact h
  | reg event =>
    obtain ⟨state, spiState, irq, pendingCtrl, accesses, heq⟩ := d.regStep_eq event
    change (d.regStep event).Counts second stranded owed
    rw [heq]
    exact h.of_same ⟨rfl, rfl, rfl⟩

/-- A frame is queued if it has the right size and there is room for it. -/
theorem submitTxBuffer_spec (hfcs : d.rx.fcsCheckEn = false)
    (header : UInt16) (p : Nat) :
    ((d.submitTxBuffer header p).1 = .success ↔ minFrameSize ≤ (d.tx.descs p).trxSize ∧
      (d.tx.descs p).trxSize ≤ maxFrameSize ∧ d.tx.txQueue.queueIsFull = false) ∧
    (d.submitTxBuffer header p).2.tx.descs = d.tx.descs ∧
    (d.submitTxBuffer header p).2.txCalls = d.txCalls ∧
    (d.submitTxBuffer header p).2.tx.txQueue =
      if (d.submitTxBuffer header p).1 = .success then d.tx.txQueue.put ⟨header, p⟩
      else d.tx.txQueue := by
  have hend {d' : MacDevice} : d'.submitEnd.tx.descs = d'.tx.descs ∧
      d'.submitEnd.txCalls = d'.txCalls ∧ d'.submitEnd.tx.txQueue = d'.tx.txQueue :=
    ⟨(submitEnd_same d').descs, (submitEnd_same d').txCalls, (submitEnd_same d').txQueue⟩
  fun_cases submitTxBuffer d header p with
  | case1 desc hsize =>
    refine ⟨⟨fun hs => (by cases hs), fun hs => ?_⟩, hend.1, hend.2.1, hend.2.2⟩
    have hdesc : desc = d.tx.descs p := rfl
    rw [hdesc] at hsize
    omega
  | case2 desc hsize hboth =>
    rw [hfcs] at hboth
    exact absurd hboth.1 Bool.false_ne_true
  | case3 desc hsize hboth hfull =>
    refine ⟨⟨fun hs => (by cases hs), fun hs => ?_⟩, hend.1, hend.2.1, hend.2.2⟩
    rw [hs.2.2] at hfull
    exact absurd hfull Bool.false_ne_true
  | case4 desc hsize hboth hroom fcs desc' =>
    have hdesc' : desc' = d.tx.descs p := by
      simp only [desc', hfcs, Bool.false_eq_true, if_false, desc]
    have hdesc : desc = d.tx.descs p := rfl
    rw [hdesc] at hsize
    refine ⟨⟨fun _ => ⟨by omega, by omega, by simpa using hroom⟩, fun _ => rfl⟩, ?_, hend.2.1,
      hend.2.2⟩
    rw [hend.1, hdesc']
    exact Function.update_eq_self _ _

/-- A descriptor comes to its next holder. -/
theorem Counts.put (h : d.Counts second stranded owed) {p : Nat} {desc : BufDesc}
    {second' : Option Nat} {owed' : Nat → Nat}
    (hdescs : d'.tx.descs = Function.update d.tx.descs p desc)
    (hcalls : d'.txCalls = d.txCalls)
    (hothers : ∀ q, q ≠ p →
      d'.holders second' stranded q = d.holders second stranded q ∧ owed' q = owed q)
    (href : desc.refCount = d'.holders second' stranded p)
    (hheld : d'.holders second' stranded p ≠ 0)
    (howed : owed' p = owed p + if d.holders second stranded p = 0 then 1 else 0)
    (honce : ∀ q, (if second' = some q then 1 else 0) + stranded.count q ≤ 1)
    (hroom : ∀ q, second' = some q → q = p ∧ minFrameSize ≤ desc.trxSize ∧
      desc.trxSize ≤ maxFrameSize ∧ d'.tx.txQueue.queueIsFull = false) :
    d'.Counts second' stranded owed' := by
  refine ⟨fun q hq => ?_, fun q => ?_, honce, fun q hq => ?_⟩
  · rw [hdescs]
    rcases eq_or_ne q p with rfl | hne
    · rw [Function.update_self, href]
    · rw [(hothers q hne).1] at hq ⊢
      rw [Function.update_of_ne hne]
      exact h.refs q hq
  · have hbefore := h.calls q
    rw [hcalls]
    rcases eq_or_ne q p with rfl | hne
    · rw [if_neg hheld, howed, ← hbefore]
      split_ifs <;> rfl
    · rw [(hothers q hne).1, (hothers q hne).2]
      exact hbefore
  · obtain ⟨rfl, hmin, hmax, hfull⟩ := hroom q hq
    rw [hdescs, Function.update_self]
    exact ⟨hmin, hmax, hfull⟩

/-- A descriptor that nobody holds may change. -/
theorem Counts.write (h : d.Counts none stranded owed) {p : Nat} {desc : BufDesc}
    (hfree : d.holders none stranded p = 0)
    (hdescs : d'.tx.descs = Function.update d.tx.descs p desc)
    (hqueue : d'.tx.txQueue = d.tx.txQueue) (hcalls : d'.txCalls = d.txCalls) :
    d'.Counts none stranded owed := by
  have hholders (q : Nat) : d'.holders none stranded q = d.holders none stranded q := by
    rw [holders, holders, copies, copies, hqueue]
  refine ⟨fun q hq => ?_, fun q => ?_, h.once, fun q hq => by cases hq⟩
  · rw [hholders] at hq ⊢
    have hne : q ≠ p := fun heq => hq (heq ▸ hfree)
    rw [hdescs, Function.update_of_ne hne]
    exact h.refs q hq
  · rw [hholders, hcalls]
    exact h.calls q

theorem copies_put (hinv : d.tx.txQueue.Inv) (hroom : d.tx.txQueue.queueIsFull = false)
    {header : UInt16} {p : Nat} (hqueue : d'.tx.txQueue = d.tx.txQueue.put ⟨header, p⟩) (q : Nat) :
    d'.copies q = d.copies q + if q = p then 1 else 0 := by
  rw [copies, copies, hqueue, MacQueue.entries_put hinv hroom, List.map_append, List.count_append]
  congr 1
  rcases eq_or_ne q p with rfl | hne
  · simp
  · simp [hne, hne.symm]

/-- What holds between two events, whatever is done to the driver. -/
structure Works (d : MacDevice) : Prop where
  good : d.Good
  oaCps : d.oaCps = 6
  ready : d.rx.Ready
  fcs : d.rx.fcsCheckEn = false

theorem step_works (h : d.Works) {event : Event} (hadm : d.Admissible event) :
    (d.step event).Works := by
  obtain ⟨hcps, l, -, hrx⟩ := step_rx h.oaCps event
  have hkeeps := RxSide.receive_keeps h.ready l (d.heardAt event)
  rw [← hrx] at hkeeps
  exact ⟨step_good h.good event hadm, hcps, hkeeps.ready h.ready, hkeeps.fcsCheckEn.trans h.fcs⟩

end MacDevice

namespace Adin2111
variable {n : Adin2111}

/-- What has been allocated is held, has been freed or has never been sent. -/
structure Owned (n : Adin2111) : Prop where
  works : n.mac.Works
  counts : ∃ owed, n.mac.Counts n.second n.stranded owed ∧
    ∀ p, n.failed.count p + n.unsent.count p + owed p = n.allocated.count p

theorem serve_owned (h : n.Owned) {event : MacDevice.Event} (hadm : n.mac.Admissible event)
    (hsubmit : ∀ header p desc, event ≠ .submit header p desc) : (n.serve event).Owned := by
  obtain ⟨hworks, owed, hcounts, htotal⟩ := h
  exact ⟨MacDevice.step_works hworks hadm, owed,
    MacDevice.step_counts hcounts hworks.good hadm hsubmit, htotal⟩

theorem second_none (h : n.flooding = none) : n.second = none := by
  rw [second, h]
  rfl

theorem second_some {half : SecondHalf} (h : n.flooding = some half) :
    n.second = if half.counted then some half.pBufDesc else none := by
  rw [second, h, Option.filter_some]
  cases half.counted <;> rfl

/-- What a submission to the MAC does. -/
theorem submitTo_spec (h : n.mac.Works) (port : TxPort) {p : Nat} (desc : BufDesc)
    (hfresh : (∀ e ∈ n.mac.tx.txQueue.entries, e.pBufDesc ≠ p) ∨
      desc.frame = (n.mac.tx.descs p).frame) :
    ∃ result mac header, n.submitTo port p desc = (result, { n with mac }) ∧ mac.Works ∧
      (result = .success ↔ minFrameSize ≤ desc.trxSize ∧ desc.trxSize ≤ maxFrameSize ∧
        n.mac.tx.txQueue.queueIsFull = false) ∧
      mac.tx.descs = Function.update n.mac.tx.descs p { desc with port := port.value } ∧
      mac.txCalls = n.mac.txCalls ∧
      mac.tx.txQueue = if result = .success then n.mac.tx.txQueue.put ⟨header, p⟩
        else n.mac.tx.txQueue := by
  obtain ⟨header, hheader⟩ : ∃ header, header = frameHeader port.value desc.egressCapt := ⟨_, rfl⟩
  obtain ⟨mac, hmac⟩ : ∃ mac, mac = { n.mac with tx := { n.mac.tx with
    descs := Function.update n.mac.tx.descs p { desc with port := port.value } } } := ⟨_, rfl⟩
  have hdescs : mac.tx.descs =
      Function.update n.mac.tx.descs p { desc with port := port.value } := by rw [hmac]
  have hstep : (mac.submitTxBuffer header p).2 =
      n.mac.step (.submit header p { desc with port := port.value }) := by rw [hmac]; rfl
  have hworks : (mac.submitTxBuffer header p).2.Works := by
    rw [hstep]
    exact MacDevice.step_works h (hfresh.imp_right fun hframe => ⟨h.fcs, hframe⟩)
  obtain ⟨hsuccess, hdescs', hcalls, hqueue⟩ :=
    MacDevice.submitTxBuffer_spec (d := mac) (by rw [hmac]; exact h.fcs) header p
  rw [hdescs, Function.update_self] at hsuccess
  rw [hdescs] at hdescs'
  refine ⟨(mac.submitTxBuffer header p).1, (mac.submitTxBuffer header p).2, header, ?_, hworks, ?_,
    hdescs', ?_, ?_⟩
  · rw [hheader, hmac]
    rfl
  · rw [hsuccess, hmac]
  · rw [hcalls, hmac]
  · rw [hqueue, hmac]

/-- A frame that is new is queued for a port, or nothing of it is left. -/
theorem submitTo_fresh (h : n.mac.Works) {stranded : List Nat} {owed : Nat → Nat}
    (hcounts : n.mac.Counts none stranded owed) (port : TxPort) {p : Nat}
    (hp : n.mac.holders none stranded p = 0) (desc : BufDesc) :
    ∃ result mac, n.submitTo port p desc = (result, { n with mac }) ∧ mac.Works ∧
      (result ≠ .success → mac.Counts none stranded owed) ∧
      (result = .success → desc.refCount = 1 →
        mac.Counts none stranded (Function.update owed p (owed p + 1))) ∧
      (result = .success → desc.refCount = 2 → 2 ≤ n.mac.tx.txQueue.queueAvailable →
        mac.Counts (some p) stranded (Function.update owed p (owed p + 1))) := by
  obtain ⟨hcopies, hstranded⟩ : n.mac.copies p = 0 ∧ stranded.count p = 0 := by
    simp only [MacDevice.holders] at hp
    omega
  have hfresh : ∀ e ∈ n.mac.tx.txQueue.entries, e.pBufDesc ≠ p := by
    rw [MacDevice.copies, List.count_eq_zero] at hcopies
    intro e he heq
    exact hcopies (heq ▸ List.mem_map_of_mem he)
  obtain ⟨result, mac, header, heq, hworks, hsuccess, hdescs, hcalls, hqueue⟩ :=
    submitTo_spec h port desc (.inl hfresh)
  have hinv := h.good.sent.position.queue
  refine ⟨result, mac, heq, hworks, fun hfail => ?_, fun hok href => ?_, fun hok href hroom => ?_⟩
  · rw [if_neg hfail] at hqueue
    exact hcounts.write hp hdescs hqueue hcalls
  · obtain ⟨hmin, hmax, hfull⟩ := hsuccess.mp hok
    rw [if_pos hok] at hqueue
    have hput := MacDevice.copies_put hinv hfull hqueue
    refine hcounts.put hdescs hcalls (fun q hq => ⟨?_, Function.update_of_ne hq _ _⟩) ?_ ?_ ?_
      hcounts.once ?_
    · simp [MacDevice.holders, hput, hq]
    · simp [MacDevice.holders, hput, hcopies, hstranded, href]
    · simp [MacDevice.holders, hput]
    · simp [hp]
    · exact fun q hq => by cases hq
  · obtain ⟨hmin, hmax, hfull⟩ := hsuccess.mp hok
    rw [if_pos hok] at hqueue
    have hput := MacDevice.copies_put hinv hfull hqueue
    refine hcounts.put hdescs hcalls (fun q hq => ⟨?_, Function.update_of_ne hq _ _⟩) ?_ ?_ ?_
      (fun q => ?_) ?_
    · simp [MacDevice.holders, hput, hq, hq.symm]
    · simp [MacDevice.holders, hput, hcopies, hstranded, href]
    · simp [MacDevice.holders]
    · simp [hp]
    · rcases eq_or_ne p q with rfl | hne
      · simp [hstranded]
      · simpa [hne] using hcounts.once q
    · intro q hq
      obtain rfl : p = q := Option.some.inj hq
      refine ⟨rfl, hmin, hmax, ?_⟩
      have hcount := MacQueue.queueCount_put hinv hfull ⟨header, p⟩
      rw [hqueue]
      simp only [MacQueue.queueIsFull, decide_eq_false_iff_not, hcount]
      simp only [MacQueue.queueAvailable] at hroom
      change ¬ n.mac.tx.txQueue.numEntries - 1 = _
      omega

/-- The frame that has just been allocated is held, or has been freed, when it is submitted. -/
theorem submitTxBuffer_owned (h : n.mac.Works) (hflood : n.flooding = none) {owed : Nat → Nat}
    (hcounts : n.mac.Counts none n.stranded owed) {p : Nat}
    (hp : n.mac.holders none n.stranded p = 0)
    (htotal : ∀ q, n.failed.count q + n.unsent.count q + owed q + (if q = p then 1 else 0) =
      n.allocated.count q) (port : TxPort) (desc : BufDesc) :
    (∀ result n', n.submitTxBuffer port p desc = (some result, n') →
      (n'.submitted p result).Owned) ∧
    ∀ n', n.submitTxBuffer port p desc = (none, n') → n'.Owned := by
  have hnone (mac : MacDevice) : ({ n with mac } : Adin2111).second = none := second_none hflood
  have hfail {mac : MacDevice} (hmac : mac.Works) (hmaccounts : mac.Counts none n.stranded owed)
      {result : EthResult} (hne : result ≠ .success) :
      ({ n with mac }.submitted p result).Owned := by
    rw [submitted, if_pos hne]
    refine ⟨hmac, owed, hnone mac ▸ hmaccounts, fun q => ?_⟩
    rw [← htotal q, List.count_append]
    rcases eq_or_ne q p with rfl | hqp
    · simp only [List.count_singleton_self, if_true]
      omega
    · simp [hqp, hqp.symm]
  have hdone {mac : MacDevice} (hmac : mac.Works) {flooding : Option SecondHalf}
      (hmaccounts : mac.Counts { n with mac, flooding }.second n.stranded
        (Function.update owed p (owed p + 1))) : { n with mac, flooding }.Owned := by
    refine ⟨hmac, _, hmaccounts, fun q => ?_⟩
    have hq := htotal q
    rcases eq_or_ne q p with rfl | hqp
    · rw [if_pos rfl] at hq
      rw [Function.update_self]
      omega
    · rw [if_neg hqp] at hq
      rw [Function.update_of_ne hqp]
      omega
  -- a frame for one port only
  have hsingle (port' : TxPort) (desc' : BufDesc) (href : desc'.refCount = 1) :
      ((n.submitTo port' p desc').2.submitted p (n.submitTo port' p desc').1).Owned := by
    obtain ⟨result, mac, heq, hmac, hnot, hone, -⟩ := submitTo_fresh h hcounts port' hp desc'
    rw [heq]
    rcases eq_or_ne result .success with hok | hne
    · rw [submitted, if_neg (not_not.mpr hok)]
      have howned : { n with mac, flooding := none }.Owned := hdone hmac (hone hok href)
      rw [show ({ n with mac, flooding := none } : Adin2111) = { n with mac } by rw [← hflood]]
        at howned
      exact howned
    · exact hfail hmac (hnot hne) hne
  fun_cases submitTxBuffer n port p desc with
  | case1 desc₁ hport hroom =>
    refine ⟨fun result n' heq => ?_, fun n' heq => by cases heq⟩
    obtain ⟨rfl, rfl⟩ : .queueFull = result ∧ n = n' := by simpa using heq
    exact hfail h hcounts (by decide)
  | case2 desc₁ hport hroom hfirst desc₂ result₁ n₁ heq₁ hne =>
    refine ⟨fun result n' heq => ?_, fun n' heq => by cases heq⟩
    obtain ⟨rfl, rfl⟩ : result₁ = result ∧ n₁ = n' := by simpa using heq
    obtain ⟨result, mac, heq', hmac, hnot, -⟩ := submitTo_fresh h hcounts .port1 hp desc₂
    obtain ⟨rfl, rfl⟩ := Prod.mk.inj (heq₁.symm.trans heq')
    exact hfail hmac (hnot hne) hne
  | case3 desc₁ hport hroom hfirst desc₂ result₁ n₁ heq₁ hok =>
    refine ⟨fun result n' heq => (by cases heq), fun n' heq => ?_⟩
    obtain rfl : { n₁ with flooding := some ⟨p, n₁.portEnabled .port2⟩ } = n' := (Prod.mk.inj heq).2
    obtain ⟨result, mac, heq', hmac, -, hone, htwo⟩ := submitTo_fresh h hcounts .port1 hp desc₂
    obtain ⟨rfl, rfl⟩ := Prod.mk.inj (heq₁.symm.trans heq')
    refine hdone hmac ?_
    rw [second_some rfl]
    cases hboth : n.portEnabled .port2 with
    | true =>
      have href : desc₂.refCount = 2 := by simp only [desc₂, hboth, if_true]
      exact htwo (not_not.mp hok) href (Nat.not_lt.mp hroom)
    | false =>
      have href : desc₂.refCount = 1 := by
        simp only [desc₂, hboth, Bool.false_eq_true, if_false, desc₁]
      exact hone (not_not.mp hok) href
  | case4 desc₁ hport hroom hfirst hsecond result₁ n₁ heq₁ =>
    refine ⟨fun result n' heq => ?_, fun n' heq => by cases heq⟩
    obtain ⟨rfl, rfl⟩ : result₁ = result ∧ n₁ = n' := by simpa using heq
    have howned := hsingle .port2 desc₁ rfl
    rwa [heq₁] at howned
  | case5 desc₁ hport hroom hfirst hsecond =>
    refine ⟨fun result n' heq => ?_, fun n' heq => by cases heq⟩
    obtain ⟨rfl, rfl⟩ : .success = result ∧ { n with unsent := n.unsent ++ [p] } = n' := by
      simpa using heq
    rw [submitted, if_neg (not_not.mpr rfl)]
    refine ⟨h, owed, hnone n.mac ▸ hcounts, fun q => ?_⟩
    rw [← htotal q, List.count_append]
    rcases eq_or_ne q p with rfl | hqp
    · simp only [List.count_singleton_self, if_true]
      omega
    · simp [hqp, hqp.symm]
  | case6 desc₁ hport result₁ n₁ heq₁ =>
    refine ⟨fun result n' heq => ?_, fun n' heq => by cases heq⟩
    obtain ⟨rfl, rfl⟩ : result₁ = result ∧ n₁ = n' := by simpa using heq
    have howned := hsingle (n.txPort port desc₁) desc₁ rfl
    rwa [heq₁] at howned

/-- A descriptor that is not in use is not held. -/
theorem Owned.free (h : n.Owned) {p : Nat} (hp : n.freed.count p = n.allocated.count p) :
    n.mac.holders n.second n.stranded p = 0 := by
  obtain ⟨-, owed, hcounts, htotal⟩ := h
  have hcalls := hcounts.calls p
  rw [← htotal p, freed, List.count_append] at hp
  by_contra hne
  rw [if_neg hne] at hcalls
  omega

theorem send_owned (h : n.Owned) (hflood : n.flooding = none) {p : Nat}
    (hp : n.freed.count p = n.allocated.count p) (memory : Nat → UInt8) (data : List UInt8)
    (port : Nat) : (n.send (some p) memory data port).2.Owned := by
  have hfree := h.free hp
  obtain ⟨hworks, owed, hcounts, htotal⟩ := h
  rw [second_none hflood] at hcounts hfree
  have htotal' (q : Nat) : n.failed.count q + n.unsent.count q + owed q +
      (if q = p then 1 else 0) = (n.allocated ++ [p]).count q := by
    rw [htotal q, List.count_append]
    congr 1
    rcases eq_or_ne q p with rfl | hne
    · simp
    · simp [hne, hne.symm]
  obtain ⟨hsome, hpending⟩ := submitTxBuffer_owned (n := { n with allocated := n.allocated ++ [p] })
    hworks hflood hcounts hfree htotal' (driverTxPort port)
    { pBuf := blit memory 0 data, bufSize := 0, trxSize := data.length % 0x100000000 }
  simp only [send]
  generalize submitTxBuffer { n with allocated := n.allocated ++ [p] } (driverTxPort port) p
    { pBuf := blit memory 0 data, bufSize := 0, trxSize := data.length % 0x100000000 } = r at *
  obtain ⟨result, n'⟩ := r
  cases result with
  | none => exact hpending n' rfl
  | some result => exact hsome result n' rfl

/-- The second submission of a frame does not fail: there is still room for it. -/
theorem second_owned (h : n.Owned) {p : Nat} (hflood : n.flooding = some ⟨p, true⟩) :
    ({ n with flooding := none }.submitTo .port2 p (n.mac.tx.descs p)).1 = .success ∧
      ({ n with flooding := none }.submitTo .port2 p (n.mac.tx.descs p)).2.Owned := by
  obtain ⟨hworks, owed, hcounts, htotal⟩ := h
  rw [second_some hflood, if_pos rfl] at hcounts
  have hroom := hcounts.room p rfl
  obtain ⟨result, mac, header, heq, hmac, hsuccess, hdescs, hcalls, hqueue⟩ :=
    submitTo_spec (n := { n with flooding := none }) hworks .port2 (n.mac.tx.descs p) (.inr rfl)
  obtain rfl : result = .success := hsuccess.mpr hroom
  have hput := MacDevice.copies_put hworks.good.sent.position.queue hroom.2.2 hqueue
  have hheld : n.mac.holders (some p) n.stranded p ≠ 0 := by simp [MacDevice.holders]
  have hsame (q : Nat) : mac.holders none n.stranded q = n.mac.holders (some p) n.stranded q := by
    rw [MacDevice.holders, MacDevice.holders, hput]
    simp [eq_comm]
  rw [heq]
  refine ⟨rfl, hmac, owed, ?_, htotal⟩
  change mac.Counts none n.stranded owed
  refine hcounts.put hdescs hcalls (fun q hq => ⟨hsame q, rfl⟩) ?_ ?_ ?_ (fun q => ?_) ?_
  · rw [hsame]
    exact hcounts.refs p hheld
  · rw [hsame]
    exact hheld
  · rw [if_neg hheld]
    rfl
  · have honce := hcounts.once q
    simp only [reduceCtorEq, if_false]
    omega
  · exact fun q hq => by cases hq

/-- The frame that waits for port 2 is submitted, or stays counted for it if it has been. -/
theorem resume_owned (h : n.Owned) (hadm : n.Admissible .resume) : n.resume.Owned := by
  fun_cases resume n with
  | case1 => exact h
  | case2 p counted hflood n₁ hsecond result n₂ heq =>
    obtain rfl : counted = true := by
      by_contra hnot
      have hoff := hadm _ hflood (by simpa using hnot)
      exact absurd (hoff.symm.trans hsecond) Bool.false_ne_true
    obtain ⟨hok, howned⟩ := second_owned h hflood
    rw [heq] at hok howned
    rwa [submitted, if_neg (not_not.mpr hok)]
  | case3 p n₁ hsecond hflood =>
    obtain ⟨hworks, owed, hcounts, htotal⟩ := h
    have hholders (q : Nat) : n.mac.holders none (n.stranded ++ [p]) q =
        n.mac.holders (some p) n.stranded q := by
      simp only [MacDevice.holders, List.count_append, List.count_singleton]
      grind
    rw [second_some hflood, if_pos rfl] at hcounts
    refine ⟨hworks, owed, ⟨fun q hq => ?_, fun q => ?_, fun q => ?_, fun q hq => by cases hq⟩,
      htotal⟩
    · change n.mac.holders none (n.stranded ++ [p]) q ≠ 0 at hq
      change (n.mac.tx.descs q).refCount = n.mac.holders none (n.stranded ++ [p]) q
      rw [hholders] at hq ⊢
      exact hcounts.refs q hq
    · change _ + (if n.mac.holders none (n.stranded ++ [p]) q = 0 then 0 else 1) = owed q
      rw [hholders]
      exact hcounts.calls q
    · have honce := hcounts.once q
      change 0 + (n.stranded ++ [p]).count q ≤ 1
      simp only [List.count_append, List.count_singleton]
      grind
  | case4 p counted hflood n₁ hsecond hnot =>
    obtain ⟨hworks, owed, hcounts, htotal⟩ := h
    rw [second_some hflood, if_neg hnot] at hcounts
    exact ⟨hworks, owed, hcounts, htotal⟩

theorem step_owned (h : n.Owned) (event : Event) (hadm : n.Admissible event) :
    (n.step event).Owned := by
  cases event with
  | send alloc memory data port =>
    simp only [step]
    split_ifs with hflood
    · cases alloc with
      | none => exact h
      | some p => exact send_owned h hflood hadm memory data port
    · exact h
  | resume => exact resume_owned h hadm
  | interrupt => exact serve_owned h trivial (by simp)
  | dataDone spiRxBuf timestampBytes => exact serve_owned h hadm (by simp)
  | ctrlDone more => exact serve_owned h trivial (by simp)
  | reg event => exact serve_owned h trivial (by simp)
  | setPort port enabled => exact ⟨h.works, h.counts⟩
  | ageTick => exact ⟨h.works, h.counts⟩

theorem init_owned (memory : Nat → Nat → UInt8) : (init memory).Owned := by
  have hreceives := (RxSide.init_receives memory).1
  rw [← MacDevice.init_rx] at hreceives
  have hentries : (MacDevice.init memory).tx.txQueue.entries = [] := MacQueue.init_entries 5
  have hholders (p : Nat) : (MacDevice.init memory).holders none [] p = 0 := by
    simp [MacDevice.holders, MacDevice.copies, hentries]
  refine ⟨⟨MacDevice.init_good memory, MacDevice.init_oaCps memory, hreceives.ready, hreceives.fcs⟩,
    fun _ => 0, ⟨fun p hp => absurd (hholders p) hp, fun p => ?_, fun p => Nat.zero_le 1,
      fun p hp => by cases hp⟩, fun _ => rfl⟩
  exact congrArg (fun k => 0 + if k = 0 then 0 else 1) (hholders p)

/-- Every descriptor that has been allocated is in the queue or to be put there, or it has been
freed just once; but one that was to be sent to both ports while neither was enabled is never freed,
nor one of which the second port was disabled after the first submission had counted it. A frame
that has been submitted for the first of two ports is accepted for the second one too. -/
theorem released_run (memory : Nat → Nat → UInt8) (events : List Event)
    (h : Conforming memory events) :
    (∀ p, (run memory events).freed.count p + (run memory events).unsent.count p +
      (if p ∈ (run memory events).mac.tx.txQueue.entries.map (·.pBufDesc) ∨
        (run memory events).flooding = some ⟨p, true⟩ ∨ p ∈ (run memory events).stranded
          then 1 else 0) = (run memory events).allocated.count p) ∧
    ∀ p, (run memory events).flooding = some ⟨p, true⟩ →
      ({ run memory events with flooding := none }.submitTo .port2 p
        ((run memory events).mac.tx.descs p)).1 = .success := by
  have hstep : ∀ (n : Adin2111) (event : Event), n.Owned → n.Admissible event →
      (n.step event).Owned := fun _ event howned hadm => step_owned howned event hadm
  have howned : (run memory events).Owned := foldl_invariant hstep (init_owned memory) h
  generalize run memory events = n at howned
  refine ⟨fun p => ?_, fun p hp => (second_owned howned hp).1⟩
  obtain ⟨-, owed, hcounts, htotal⟩ := howned
  have hsecond : n.second = some p ↔ n.flooding = some ⟨p, true⟩ := by
    cases hflood : n.flooding with
    | none => simp [second_none hflood]
    | some half =>
      obtain ⟨q, counted⟩ := half
      cases counted <;> simp [second_some hflood]
  have hheld : n.mac.holders n.second n.stranded p = 0 ↔
      ¬(p ∈ n.mac.tx.txQueue.entries.map (·.pBufDesc) ∨ n.flooding = some ⟨p, true⟩ ∨
        p ∈ n.stranded) := by
    rw [MacDevice.holders, MacDevice.copies, Nat.add_eq_zero_iff, Nat.add_eq_zero_iff,
      List.count_eq_zero, List.count_eq_zero, not_or, not_or, ← hsecond]
    simp [and_assoc]
  have hcalls := hcounts.calls p
  rw [← htotal p, freed, List.count_append, ← hcalls]
  by_cases hp : n.mac.holders n.second n.stranded p = 0
  · rw [if_pos hp, if_neg (hheld.mp hp)]
    omega
  · rw [if_neg hp, if_pos (not_not.mp fun hneg => hp (hheld.mpr hneg))]
    omega

/-- A frame is sent to both ports and is freed when both copies have been sent; of the next one the
second port is disabled too early. -/
def twoSends : List Event :=
  [.send (some 7) (fun _ => 0) (List.replicate 60 1) 0, .resume,
    .dataDone MacDevice.accepts fun _ => 0, .dataDone MacDevice.accepts fun _ => 0,
    .send (some 8) (fun _ => 0) (List.replicate 60 1) 0, .setPort .port2 false, .resume,
    .dataDone MacDevice.accepts fun _ => 0]

theorem released_run_two : (run (fun _ _ => 0) twoSends).freed.count 7 = 1 ∧
    (run (fun _ _ => 0) twoSends).freed.count 8 = 0 := by
  have hconforming : Conforming (fun _ _ => 0) twoSends := by decide +kernel
  obtain ⟨hcount, -⟩ := released_run _ _ hconforming
  have hempty : (run (fun _ _ => 0) twoSends).mac.tx.txQueue.entries = [] := by decide +kernel
  have hflood : (run (fun _ _ => 0) twoSends).flooding = none := by decide +kernel
  have hstranded : (run (fun _ _ => 0) twoSends).stranded = [8] := by decide +kernel
  have hunsent : (run (fun _ _ => 0) twoSends).unsent = [] := by decide +kernel
  have hallocated : (run (fun _ _ => 0) twoSends).allocated = [7, 8] := by decide +kernel
  have hfreed := hcount 7
  have hstays := hcount 8
  rw [hempty, hflood, hstranded, hunsent, hallocated] at hfreed hstays
  exact ⟨by simpa using hfreed, by simpa using hstays⟩

end Adin2111

end BmCore.Drivers
