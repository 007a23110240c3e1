import BmCore.Drivers.RxChunks
import BmCore.Drivers.TxTransactions

/-!
# The state machine of the MAC driver

`oaStateMachine` of `drivers/adin2111/adi_spi_oa.c` goes on with every transaction on the serial
interface that has ended, and starts the next one while there is something to transmit or to
receive. An interrupt is served with a transaction of one chunk without data. `step` is one event: a
client submits a buffer, the MAC raises an interrupt, a client accesses a register, or a transaction
ends.

The transactions that read the status registers and clear them leave what is modelled here as it is;
`ctrlDone` says when the last of them has been started. So do the transactions of
`MAC_ReadRegister` and `MAC_WriteRegister`, but for the states and for the interrupt, which each
access disables first and enables in the end. Several clients may be in an access at once. An event
runs to its end before the next one; what comes between a client's last look at `spiState` and the
start of its transaction is not modelled.
-/
namespace BmCore.Drivers
open Library

/-- `adi_mac_State_e`, without the states of initialization. `ADI_MAC_STATE_CONTROL_START` is left
as soon as it is entered. -/
inductive MacState where
  | ready | controlEnd | dataStart | dataEnd | irqStart | readStatus | readPhyRegister
  deriving DecidableEq, Repr

/-- `adi_mac_SpiState_e` -/
inductive SpiState where
  | ready | rx | txFrame | rxFrame
  deriving DecidableEq, Repr

/-- `adi_eth_Result_e` -/
inductive EthResult where
  | success | paramOutOfRange | queueFull
  deriving DecidableEq, Repr

/-- A client in `MAC_ReadRegister` or `MAC_WriteRegister`. -/
structure RegAccess where
  /-- the client will enable the interrupt -/
  backup : Bool
  /-- the client waits for a transaction that is going on -/
  waiting : Bool := true
  deriving DecidableEq, Repr

/-- `adi_mac_Device_t` and the buffers of `adi_spi_oa.c` -/
structure MacDevice where
  tx : TxSide
  rx : RxSide
  state : MacState := .ready
  spiState : SpiState := .ready
  oaTxc : Nat := 31
  oaRca : Nat := 0
  oaCps : Nat := 6
  oaMaxChunkCount : Nat := 16
  oaTrxSize : Nat := 0
  spiTxBuf : Nat → UInt8 := fun _ => 0
  /-- the interrupt of the MAC is enabled -/
  irq : Bool := true
  pendingCtrl : Bool := false
  /-- the accesses to registers that have not ended -/
  accesses : List RegAccess := []
  /-- the frames that have been queued so far -/
  queued : List (List UInt8) := []
  /-- the chunks that have been sent so far -/
  wire : List (List UInt8) := []
  /-- the calls of `cbFunc` for buffers that have been sent -/
  txCalls : List (UInt32 × Nat) := []

/-- The variables of `oaStateMachine` that live from chunk to chunk. -/
structure OaLocals where
  rx : RxLocals := {}
  exst : Bool := false
  /-- `SYNC` of the last footer -/
  sync : Bool := false

/-- `ADI_OA_HEADER_BAD` -/
def oaHeaderBad : UInt32 := 0x40000000

/-- `BUFFERSIZE`, the size of `spiTxBuf` and of `spiRxBuf` -/
def bufferSize : Nat := 2000

/-- `MAX_FRAME_SIZE` -/
def maxFrameSize : Nat := 1518

/-- What a footer says of its chunk. -/
inductive FooterCheck where
  | headerBad | parityBad | noSync | good
  deriving DecidableEq, Repr

def checkFooter (word : UInt32) : FooterCheck :=
  if word = oaHeaderBad then .headerBad
  else if !parityOk word then .parityBad
  else if !(OaRxFooter.ofValue32 word).sync then .noSync
  else .good

/-- What the driver does with a received chunk and its footer. -/
def RxSide.footerEnd (r : RxSide) (l : RxLocals) (word : UInt32) (chunk : Nat → UInt8)
    (chunkSize : Nat) : RxSide × RxLocals :=
  let stats := r.oaErrorStats
  match checkFooter word with
  | .headerBad => ({ r with oaErrorStats := { stats with
      hdrParityErrorCount := stats.hdrParityErrorCount + 1 } }, l)
  | .parityBad => ({ r with oaErrorStats := { stats with
      ftrParityErrorCount := stats.ftrParityErrorCount + 1 } }, l)
  | .noSync => ({ r with oaErrorStats := { stats with
      syncErrorCount := stats.syncErrorCount + 1 } }, l)
  | .good =>
    let footer := OaRxFooter.ofValue32 word
    if footer.dv then r.dataValid l footer chunk chunkSize else (r, l)

namespace MacDevice

def chunkSize (d : MacDevice) : Nat := 1 <<< d.oaCps

/-- The size of a chunk with its header. -/
def chunkStep (d : MacDevice) : Nat := adiSpiHeaderSize + d.chunkSize

/-- The chunks of the transaction. -/
def trxChunks (d : MacDevice) : Nat := (d.oaTrxSize + d.chunkStep - 1) / d.chunkStep

/-- `oaSpiProcess`, and the transaction that `ADI_HAL_SPI_READ_WRITE` starts -/
def startData (d : MacDevice) (spiState : SpiState) : MacDevice :=
  let (tx, spiTxBuf, oaTrxSize) := d.tx.oaSpiProcess d.oaTxc d.oaRca d.oaCps d.oaMaxChunkCount
    false d.rx.pRxQueue.queueIsEmpty d.spiTxBuf
  let d := { d with tx, spiTxBuf, oaTrxSize, state := .dataEnd, spiState }
  { d with wire := d.wire ++ TxSide.wires d.spiTxBuf d.chunkSize d.trxChunks }

/-- The driver is ready for the next event. The interrupt stays disabled for a client that waits for
its access. -/
def idle (d : MacDevice) : MacDevice :=
  { d with state := .ready, spiState := .ready, irq := d.irq || !d.pendingCtrl }

/-- `ADI_MAC_STATE_DATA_START` -/
def dataStart (d : MacDevice) : MacDevice :=
  let d' := d.startData .txFrame
  if d'.oaTrxSize ≠ 0 then d'
  else { d with tx := d'.tx, spiTxBuf := d'.spiTxBuf, oaTrxSize := 0 }.idle

/-- The oldest entry of the transmit queue has been sent. The buffer goes back to its owner when
there is no other entry with it. -/
def txDone (d : MacDevice) (event : UInt32) : MacDevice :=
  let pBufDesc := (d.tx.txQueue.pEntries d.tx.txQueue.tail).pBufDesc
  let desc := d.tx.descs pBufDesc
  let refCount := sub32 desc.refCount 1
  { d with
    tx := { d.tx with
      txQueue := d.tx.txQueue.queueRemove
      descs := Function.update d.tx.descs pBufDesc { desc with refCount } }
    txCalls := if refCount = 0 then d.txCalls ++ [(event, pBufDesc)] else d.txCalls }

/-- A chunk of `ADI_MAC_STATE_DATA_END` -/
def chunkEnd (d : MacDevice) (l : OaLocals) (spiRxBuf : Nat → UInt8) (chunkStart : Nat) :
    MacDevice × OaLocals :=
  let word := hton32Word (peek spiRxBuf (chunkStart + d.chunkSize) 4)
  let footer := OaRxFooter.ofValue32 word
  let l := { l with sync := footer.sync }
  let (rx, rxLocals) := d.rx.footerEnd l.rx word (fun i => spiRxBuf (chunkStart + i)) d.chunkSize
  let d := { d with rx }
  let l := { l with rx := rxLocals }
  if checkFooter word = .good then
    let d := { d with oaTxc := footer.txc, oaRca := footer.rca }
    let l := { l with exst := l.exst || footer.exst }
    if (txHeader (peek d.spiTxBuf chunkStart adiSpiHeaderSize)).ev then (d.txDone l.rx.event, l)
    else (d, l)
  else (d, l)

/-- The loop of `ADI_MAC_STATE_DATA_END` -/
def chunksEnd (d : MacDevice) (l : OaLocals) (spiRxBuf : Nat → UInt8) (n : Nat) :
    MacDevice × OaLocals :=
  (List.range n).foldl (fun s i => s.1.chunkEnd s.2 spiRxBuf (i * d.chunkStep)) (d, l)

/-- A chunk ends in the state that the chunks before it have left. -/
theorem chunksEnd_succ (d : MacDevice) (l : OaLocals) (spiRxBuf : Nat → UInt8) (n : Nat) :
    d.chunksEnd l spiRxBuf (n + 1) = (d.chunksEnd l spiRxBuf n).1.chunkEnd
      (d.chunksEnd l spiRxBuf n).2 spiRxBuf (n * d.chunkStep) := by
  simp only [chunksEnd, List.range_succ, List.foldl_append, List.foldl_cons, List.foldl_nil]

/-- `ADI_MAC_STATE_DATA_END`. `timestampBytes` is what the stack holds. -/
def dataEnd (d : MacDevice) (spiRxBuf timestampBytes : Nat → UInt8) : MacDevice :=
  let (d, l) := d.chunksEnd { rx := { timestampBytes } } spiRxBuf d.trxChunks
  if l.exst ∨ ¬l.sync then { d with state := .readStatus, spiState := .rx }
  else if (¬d.tx.txQueue.queueIsEmpty ∧ d.oaTxc ≠ 0) ∨ (¬d.rx.pRxQueue.queueIsEmpty ∧ d.oaRca ≠ 0)
  then d.startData .rxFrame
  else d.idle

/-- `oaIrqHandler` and `ADI_MAC_STATE_IRQ_START` -/
def oaIrqHandler (d : MacDevice) : MacDevice :=
  if d.spiState = .ready then
    let oaTxHeader : OaTxHeader := { dnc := true, norx := true }
    let d := { d with
      irq := false, state := .dataEnd, spiState := .rx
      spiTxBuf := blit d.spiTxBuf 0 (hton32Bytes oaTxHeader.setParityBitwise.value32)
      oaTrxSize := d.chunkStep }
    { d with wire := d.wire ++ TxSide.wires d.spiTxBuf d.chunkSize 1 }
  else d

/-- `MAC_ProcessTxQueue`, with `MAC_SendFrame` -/
def processTxQueue (d : MacDevice) : MacDevice :=
  let backup := d.irq
  let d := { d with irq := false }
  if ¬d.tx.txQueue.queueIsEmpty then
    if d.state = .ready then { d with state := .dataStart }.dataStart else d
  else { d with irq := backup }

/-- The end of `MAC_SubmitTxBuffer`, which it comes to with errors too -/
def submitEnd (d : MacDevice) : MacDevice :=
  if ¬d.tx.txQueue.queueIsEmpty ∧ d.state = .ready then d.processTxQueue else d

/-- `MAC_SubmitTxBuffer`, without the checks of pointers and of the state -/
def submitTxBuffer (d : MacDevice) (header : UInt16) (pBufDesc : Nat) : EthResult × MacDevice :=
  let desc := d.tx.descs pBufDesc
  if desc.trxSize < minFrameSize ∨ desc.trxSize > maxFrameSize then
    (.paramOutOfRange, d.submitEnd)
  else if d.rx.fcsCheckEn ∧ (desc.bufSize < desc.trxSize ∨ desc.bufSize - desc.trxSize < fcsSize)
  then (.paramOutOfRange, d.submitEnd)
  else if d.tx.txQueue.queueIsFull then (.queueFull, d.submitEnd)
  else
    let fcs := leBytes 4 (halFcsCalculate desc.frame).toNat
    let desc := if d.rx.fcsCheckEn then { desc with
      pBuf := blit desc.pBuf desc.trxSize fcs, trxSize := desc.trxSize + fcsSize } else desc
    (.success, { d with
      tx := { d.tx with
        txQueue := d.tx.txQueue.put ⟨header, pBufDesc⟩
        descs := Function.update d.tx.descs pBufDesc desc }
      queued := d.queued ++ [desc.frame] }.submitEnd)

/-- What happens in an access to a register; `i` tells the clients apart. -/
inductive RegEvent where
  /-- a client comes to the loop that waits -/
  | start
  /-- the client finds the interface ready -/
  | go (i : Nat)
  /-- the client returns, with its access started or for a timeout -/
  | finish (i : Nat)
  /-- the transaction of an access has ended -/
  | done

/-- `MAC_ReadRegister` and `MAC_WriteRegister`, and `ADI_MAC_STATE_CONTROL_START` and
`ADI_MAC_STATE_CONTROL_END` -/
def regStep (d : MacDevice) : RegEvent → MacDevice
  | .start =>
    let backup := if d.spiState ≠ .ready then true else d.irq
    { d with irq := false, pendingCtrl := true, accesses := d.accesses ++ [{ backup }] }
  | .go i =>
    match d.accesses[i]? with
    | some access =>
      if access.waiting ∧ d.spiState = .ready then
        { d with
          state := .controlEnd
          spiState := .rx
          accesses := d.accesses.set i { access with waiting := false } }
      else d
    | none => d
  | .finish i =>
    match d.accesses[i]? with
    | some access =>
      { d with
        pendingCtrl := false
        irq := d.irq || access.backup
        accesses := d.accesses.eraseIdx i }
    | none => d
  | .done => if d.state = .controlEnd then { d with state := .ready, spiState := .ready } else d

/-- What happens to the driver. -/
inductive Event where
  /-- a client has filled in a descriptor and submits it -/
  | submit (header : UInt16) (pBufDesc : Nat) (desc : BufDesc)
  /-- the MAC raises its interrupt -/
  | interrupt
  /-- a transaction with data has ended -/
  | dataDone (spiRxBuf timestampBytes : Nat → UInt8)
  /-- a transaction that reads or clears status registers has ended, and `more` says that another
  one has been started for a register of a PHY -/
  | ctrlDone (more : Bool)
  /-- a client accesses a register -/
  | reg (event : RegEvent)

/-- An event that cannot happen in a state leaves the driver alone: an interrupt that is disabled,
and the end of a transaction that has not been started. -/
def step (d : MacDevice) : Event → MacDevice
  | .submit header pBufDesc desc =>
    ({ d with tx := { d.tx with descs := Function.update d.tx.descs pBufDesc desc } }.submitTxBuffer
      header pBufDesc).2
  | .interrupt => if d.irq then d.oaIrqHandler else d
  | .dataDone spiRxBuf timestampBytes =>
    if d.state = .dataEnd then d.dataEnd spiRxBuf timestampBytes else d
  | .ctrlDone more =>
    match d.state with
    | .readStatus | .readPhyRegister =>
      { d with state := if more then .readPhyRegister else .dataStart }
    | .dataStart => d.dataStart
    | _ => d
  | .reg event => d.regStep event

/-- The driver after `MAC_Init` and `adin2111_netdevice_enable`; the transmit queue has
`TX_QUEUE_NUM_ENTRIES_RAW` entries. -/
def init (memory : Nat → Nat → UInt8) : MacDevice :=
  { tx := { txQueue := MacQueue.init 5
            descs := fun _ => { pBuf := fun _ => 0, bufSize := 0, trxSize := 0 }
            oaTxCurBufIdx := 0, oaTxCurBufByteOffset := 0 }
    rx := RxSide.init memory }

/-- The driver after a run. -/
def run (memory : Nat → Nat → UInt8) (events : List Event) : MacDevice :=
  events.foldl step (init memory)

/-- An access to a register leaves alone everything but the states and the interrupt. -/
theorem regStep_eq (d : MacDevice) (event : RegEvent) :
    ∃ state spiState irq pendingCtrl accesses, d.regStep event =
      { d with state, spiState, irq, pendingCtrl, accesses } := by
  fun_cases regStep d event with
  | case1 | case2 | case5 | case7 => exact ⟨_, _, _, _, _, rfl⟩
  | case3 | case4 | case6 | case8 =>
    exact ⟨d.state, d.spiState, d.irq, d.pendingCtrl, d.accesses, rfl⟩

/-- The state that an access leaves the driver in. A transaction is started in a driver that is
ready, and leaves it ready. -/
theorem regStep_state (d : MacDevice) (event : RegEvent) :
    ((d.regStep event).state = d.state ∧ (d.regStep event).spiState = d.spiState) ∨
    (d.spiState = .ready ∧ (d.regStep event).state = .controlEnd ∧
      (d.regStep event).spiState = .rx) ∨
    (d.state = .controlEnd ∧ (d.regStep event).state = .ready ∧
      (d.regStep event).spiState = .ready) := by
  fun_cases regStep d event with
  | case1 | case3 | case4 | case5 | case6 | case8 => exact .inl ⟨rfl, rfl⟩
  | case2 i access haccess hready => exact .inr (.inl ⟨hready.2, rfl, rfl⟩)
  | case7 hstate => exact .inr (.inr ⟨hstate, rfl, rfl⟩)

end MacDevice

end BmCore.Drivers
