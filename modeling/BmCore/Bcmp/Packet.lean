import BmCore.Common.LinkedList
import BmCore.Library.Bytes

/-!
# BCMP packets

`bcmp/packet.c` on a little-endian host: messages are written behind a header with a checksum, and
received ones are checked and handed to the handler of their type, or to the callback of the
request they reply to. Pending requests wait in the sequence list under their sequence number,
each for as long as its timeout. A packet is what the callbacks given to `packet_init` show of a
buffer: the two addresses and the bytes from the BCMP header on.

The accesses to the sequence list are the sections that its semaphore protects. A section whose
semaphore is not taken in time does nothing.
-/
namespace BmCore.Bcmp
open Library

/-- `sizeof(BcmpHeader)` -/
def bcmpHeaderSize : Nat := 13
/-- `default_message_timeout_ms` -/
def defaultMessageTimeoutMs : UInt32 := 24

structure Packet where
  src : List UInt8
  dst : List UInt8
  data : List UInt8

/-- `BcmpHeader`, with the unused fields 0. -/
def header (type checksum : UInt16) (seqNum : UInt32) : List UInt8 :=
  leBytes 2 type.toNat ++ leBytes 2 checksum.toNat ++ [0, 0] ++ leBytes 4 seqNum.toNat ++ [0, 0, 0]

/-- The little-endian number in `len` bytes of a buffer. -/
def fieldAt (data : List UInt8) (off len : Nat) : Nat := leNat ((data.drop off).take len)

def headerType (data : List UInt8) : UInt16 := .ofNat (fieldAt data 0 2)
def headerChecksum (data : List UInt8) : UInt16 := .ofNat (fieldAt data 2 2)
def headerSeqNum (data : List UInt8) : UInt32 := .ofNat (fieldAt data 6 4)

/-- `header->checksum = checksum` -/
def setChecksum (data : List UInt8) (checksum : UInt16) : List UInt8 :=
  (data.set 2 (.ofNat checksum.toNat)).set 3 (.ofNat (checksum.toNat / 256))

/-- `BcmpPacketCfg` -/
structure BcmpPacketCfg (Handler : Type) where
  sequencedReply : Bool
  sequencedRequest : Bool
  process : Option Handler

/-- `BcmpRequestElement` -/
structure BcmpRequestElement (Callback : Type) where
  type : UInt16
  timestampMs : UInt32
  timeoutMs : UInt32
  seqNum : UInt32
  cb : Option Callback

/-- `BcmpProcessData` -/
structure BcmpProcessData where
  header : List UInt8
  payload : List UInt8
  size : Nat
  src : List UInt8
  dst : List UInt8
  ingressPort : UInt8

def BcmpProcessData.type (data : BcmpProcessData) : UInt16 := headerType data.header
def BcmpProcessData.seqNum (data : BcmpProcessData) : UInt32 := headerSeqNum data.header

/-- A call into the code of a message type or of a requester. -/
inductive Call (Handler Callback : Type) where
  /-- `cfg->process(data)` -/
  | process (handler : Handler) (data : BcmpProcessData)
  /-- `cb(data.payload)` -/
  | reply (cb : Callback) (payload : List UInt8)
  /-- `element->cb(NULL)` -/
  | expired (cb : Callback)

/-- `PacketInfo`, with the static counter of `serialize`. -/
structure PacketInfo (Handler Callback : Type) where
  checksum : Packet → Nat → UInt16
  initialized : Bool
  sequenceList : LL (BcmpRequestElement Callback)
  packetList : LL (BcmpPacketCfg Handler)
  messageCount : UInt32

variable {Handler Callback : Type}

/-! ## The sections on the sequence list -/

/-- `sequence_list_add_message`, with the item `ll_create_item` allocates at `node`. -/
def sequenceListAddMessage (p : PacketInfo Handler Callback) (taken : Bool) (node : Option Nat)
    (message : BcmpRequestElement Callback) : Option (PacketInfo Handler Callback) :=
  match taken, node with
  | true, some node => do
    let sequenceList ← p.sequenceList.itemAdd node message.seqNum message
    some { p with sequenceList }
  | _, _ => some p

/-- `sequence_list_find_message`: the element the pointer that is returned points to. -/
def sequenceListFindMessage (p : PacketInfo Handler Callback) (taken : Bool) (seqNum : UInt32) :
    Option (Option Nat) :=
  if taken then p.sequenceList.getPtr seqNum else some none

/-- The second section of `process_received_message`: the callback of the element that was found
is read and the element removed. -/
def takeMessage (p : PacketInfo Handler Callback) (taken : Bool) (element : Nat)
    (seqNum : UInt32) : Option (PacketInfo Handler Callback × Option Callback) :=
  if taken then do
    let item ← p.sequenceList.heap.lookup element
    let (sequenceList, _) ← p.sequenceList.remove seqNum
    some ({ p with sequenceList }, item.data.cb)
  else some (p, none)

/-- The element has waited for longer than its timeout. -/
def BcmpRequestElement.expired (element : BcmpRequestElement Callback) (now : UInt32) : Bool :=
  now - element.timestampMs > element.timeoutMs

/-- `timer_traverse_cb`; the clock is read for every element. -/
def timerTraverseCb (now : BcmpRequestElement Callback → UInt32)
    (sequenceList : LL (BcmpRequestElement Callback)) (calls : List (Call Handler Callback))
    (element : BcmpRequestElement Callback) :
    Option (BmErr × LL (BcmpRequestElement Callback) × List (Call Handler Callback)) :=
  if element.expired (now element) then do
    let calls := calls ++ (element.cb.map .expired).toList
    let (sequenceList, err) ← sequenceList.remove element.seqNum
    some (err, sequenceList, calls)
  else some (.ok, sequenceList, calls)

/-- `sequence_list_timer_callback` -/
def sequenceListTimerCallback (p : PacketInfo Handler Callback) (taken : Bool)
    (now : BcmpRequestElement Callback → UInt32) :
    Option (PacketInfo Handler Callback × List (Call Handler Callback)) :=
  if taken then do
    let (_, sequenceList, calls) ← p.sequenceList.traverse (timerTraverseCb now) []
    some ({ p with sequenceList }, calls)
  else some (p, [])

/-! ## The registered types -/

/-- `packet_add`, with the item `ll_create_item` allocates at `node`. -/
def packetAdd (p : PacketInfo Handler Callback) (node : Nat) (cfg : BcmpPacketCfg Handler)
    (type : UInt16) : Option (PacketInfo Handler Callback) := do
  let packetList ← p.packetList.itemAdd node type.toUInt32 cfg
  some { p with packetList }

/-! ## Receiving -/

/-- `clear_ports_legacy` and `clear_ingress_port` on a source address. -/
def clearPorts (src : List UInt8) : List UInt8 :=
  ((src.set 4 0).set 5 0).set 2 (src.getD 2 0 &&& 0xF)

/-- `process_received_message` up to the checksum test. -/
def receive (p : PacketInfo Handler Callback) (packet : Packet) (size : Nat) :
    Except BmErr BcmpProcessData :=
  if !p.initialized then .error .einval
  else
    let ingressPort := (packet.src.getD 2 0 >>> 4) &&& 0xF
    let src := clearPorts packet.src
    let checksumRead := headerChecksum packet.data
    let zeroed : Packet := ⟨src, packet.dst, setChecksum packet.data 0⟩
    let checksumCalc := p.checksum zeroed ((size + bcmpHeaderSize) % 2 ^ 32)
    if checksumCalc ≠ checksumRead then .error .ebadmsg
    else
      let data := setChecksum zeroed.data checksumRead
      .ok ⟨data.take bcmpHeaderSize, data.drop bcmpHeaderSize, size, src, packet.dst, ingressPort⟩

/-- The message is a reply, so that a pending request may wait for it. -/
def BcmpPacketCfg.isReply (cfg : BcmpPacketCfg Handler) : Bool :=
  cfg.sequencedReply && !cfg.sequencedRequest

/-- The call for a message, with the callback of the request it replies to. -/
def deliver (cfg : BcmpPacketCfg Handler) (cb : Option Callback) (data : BcmpProcessData) :
    Option (Call Handler Callback) :=
  match cb with
  | some cb => some (.reply cb data.payload)
  | none => cfg.process.map (.process · data)

/-- `process_received_message` behind the checksum test. The error is that of the call, where
there is one. -/
def dispatch (p : PacketInfo Handler Callback) (takenFind takenTake : Bool)
    (data : BcmpProcessData) :
    Option (PacketInfo Handler Callback × BmErr × Option (Call Handler Callback)) := do
  match ← p.packetList.getItem data.type.toUInt32 with
  | none => some (p, .enodev, none)
  | some cfg =>
    if cfg.isReply then do
      match ← sequenceListFindMessage p takenFind data.seqNum with
      | some element => do
        let (p, cb) ← takeMessage p takenTake element data.seqNum
        some (p, .ok, deliver cfg cb data)
      | none => some (p, .ok, deliver cfg none data)
    else some (p, .ok, deliver cfg none data)

/-- `process_received_message` -/
def processReceivedMessage (p : PacketInfo Handler Callback) (takenFind takenTake : Bool)
    (packet : Packet) (size : Nat) :
    Option (PacketInfo Handler Callback × BmErr × Option (Call Handler Callback)) :=
  match receive p packet size with
  | .error err => some (p, err, none)
  | .ok data => dispatch p takenFind takenTake data

/-! ## Sending -/

/-- The sequence number of a message: the given one for a reply, a fresh one for a request. -/
def serializeSeqNum (p : PacketInfo Handler Callback) (cfg : BcmpPacketCfg Handler)
    (seqNum : UInt32) : UInt32 :=
  if cfg.sequencedReply then seqNum else if cfg.sequencedRequest then p.messageCount else 0

/-- The sequence list and the counter after `serialize`: a request is counted and waits. -/
def serializeSequence (p : PacketInfo Handler Callback) (cfg : BcmpPacketCfg Handler)
    (taken : Bool) (node : Option Nat) (now : UInt32) (type : UInt16) (cb : Option Callback) :
    Option (PacketInfo Handler Callback) :=
  if cfg.sequencedReply then some p
  else if cfg.sequencedRequest then
    sequenceListAddMessage { p with messageCount := p.messageCount + 1 } taken node
      ⟨type, now, defaultMessageTimeoutMs, p.messageCount, cb⟩
  else some p

/-- `serialize` of `data` into a packet. -/
def serialize (p : PacketInfo Handler Callback) (taken : Bool) (node : Option Nat) (now : UInt32)
    (packet : Packet) (data : List UInt8) (type : UInt16) (seqNum : UInt32)
    (cb : Option Callback) : Option (PacketInfo Handler Callback × Packet × BmErr) :=
  if !p.initialized then some (p, packet, .einval)
  else do
    match ← p.packetList.getItem type.toUInt32 with
    | none => some (p, packet, .enodev)
    | some cfg => do
      let seq := serializeSeqNum p cfg seqNum
      let p ← serializeSequence p cfg taken node now type cb
      let rest := packet.data.drop (bcmpHeaderSize + data.length)
      let packet := { packet with data := header type 0 seq ++ data ++ rest }
      let checksum := p.checksum packet ((data.length + bcmpHeaderSize) % 2 ^ 32)
      some (p, { packet with data := setChecksum packet.data checksum }, .ok)

end BmCore.Bcmp
