import BmCore.Bcmp.RoundTrip
import BmCore.Common.ByteSwap
import Mathlib.Data.List.SplitLengths

/-!
# Byte order on the wire

`check_endianness` of `bcmp/packet.c`, and `serialize` and `process_received_message` on a host of
either byte order. Messages are little-endian on the wire; a big-endian host swaps the fields of a
message when it sends it and when it receives it, field by field for each type.
-/
namespace BmCore.Bcmp
open Library

/-! ## Message types -/

/-- `BcmpMessageType` -/
inductive BcmpMessageType where
  | ack | heartbeat | echoRequest | echoReply | deviceInfoRequest | deviceInfoReply
  | protocolCapsRequest | protocolCapsReply | neighborTableRequest | neighborTableReply
  | resourceTableRequest | resourceTableReply | neighborProtoRequest | neighborProtoReply
  | systemTimeRequest | systemTimeResponse | systemTimeSet
  | netStateRequest | netStateReply | powerStateRequest | powerStateReply
  | rebootRequest | rebootReply | netAssertQuiet
  | configGet | configValue | configSet | configCommit | configStatusRequest | configStatusResponse
  | configDeleteRequest | configDeleteResponse | configClearRequest | configClearResponse
  | dfuStart | dfuPayloadReq | dfuPayload | dfuEnd | dfuAck | dfuAbort | dfuHeartbeat | dfuRebootReq
  | dfuReboot | dfuBootComplete
  | header
  deriving DecidableEq, Repr

namespace BcmpMessageType

def all : List BcmpMessageType :=
  [ack, heartbeat, echoRequest, echoReply, deviceInfoRequest, deviceInfoReply,
    protocolCapsRequest, protocolCapsReply, neighborTableRequest, neighborTableReply,
    resourceTableRequest, resourceTableReply, neighborProtoRequest, neighborProtoReply,
    systemTimeRequest, systemTimeResponse, systemTimeSet, netStateRequest, netStateReply,
    powerStateRequest, powerStateReply, rebootRequest, rebootReply, netAssertQuiet, configGet,
    configValue, configSet, configCommit, configStatusRequest, configStatusResponse,
    configDeleteRequest, configDeleteResponse, configClearRequest, configClearResponse, dfuStart,
    dfuPayloadReq, dfuPayload, dfuEnd, dfuAck, dfuAbort, dfuHeartbeat, dfuRebootReq, dfuReboot,
    dfuBootComplete, header]

def code : BcmpMessageType → UInt16
  | ack => 0x00
  | heartbeat => 0x01
  | echoRequest => 0x02
  | echoReply => 0x03
  | deviceInfoRequest => 0x04
  | deviceInfoReply => 0x05
  | protocolCapsRequest => 0x06
  | protocolCapsReply => 0x07
  | neighborTableRequest => 0x08
  | neighborTableReply => 0x09
  | resourceTableRequest => 0x0A
  | resourceTableReply => 0x0B
  | neighborProtoRequest => 0x0C
  | neighborProtoReply => 0x0D
  | systemTimeRequest => 0x10
  | systemTimeResponse => 0x11
  | systemTimeSet => 0x12
  | netStateRequest => 0xB0
  | netStateReply => 0xB1
  | powerStateRequest => 0xB2
  | powerStateReply => 0xB3
  | rebootRequest => 0xC0
  | rebootReply => 0xC1
  | netAssertQuiet => 0xC2
  | configGet => 0xA0
  | configValue => 0xA1
  | configSet => 0xA2
  | configCommit => 0xA3
  | configStatusRequest => 0xA4
  | configStatusResponse => 0xA5
  | configDeleteRequest => 0xA6
  | configDeleteResponse => 0xA7
  | configClearRequest => 0xA8
  | configClearResponse => 0xA9
  | dfuStart => 0xD0
  | dfuPayloadReq => 0xD1
  | dfuPayload => 0xD2
  | dfuEnd => 0xD3
  | dfuAck => 0xD4
  | dfuAbort => 0xD5
  | dfuHeartbeat => 0xD6
  | dfuRebootReq => 0xD7
  | dfuReboot => 0xD8
  | dfuBootComplete => 0xD9
  | header => 0xFFFF

/-- The type with a number. -/
def ofCode (code : UInt16) : Option BcmpMessageType := all.find? (·.code == code)

/-- The widths of the fields of a type's packed struct, in the order of `messages.h` and
`dfu_message_structs.h`, as far as they are fixed. -/
def fields : BcmpMessageType → List Nat
  | ack => []
  -- time_since_boot_us, liveliness_lease_dur_s
  | heartbeat => [8, 4]
  -- target_node_id or node_id, id, seq_num, payload_len
  | echoRequest | echoReply => [8, 2, 2, 2]
  | deviceInfoRequest => [8]
  -- node_id, vendor_id, product_id, serial_num[16], git_sha, four versions, two string lengths
  | deviceInfoReply => [8, 2, 2, 1, 1, 1, 1, 1, 1, 1, 1, 1, 1, 1, 1, 1, 1, 1, 1, 4, 1, 1, 1,
      1, 1, 1]
  -- target_node_id, caps_list_len
  | protocolCapsRequest => [8, 2]
  -- node_id, bcmp_rev, caps_count
  | protocolCapsReply => [8, 2, 2]
  | neighborTableRequest => [8]
  -- node_id, port_len, neighbor_len
  | neighborTableReply => [8, 1, 2]
  | resourceTableRequest => [8]
  -- node_id, num_pubs, num_subs
  | resourceTableReply => [8, 2, 2]
  -- node id, option_count
  | neighborProtoRequest | neighborProtoReply => [8, 2]
  -- target_node_id, source_node_id
  | systemTimeRequest => [8, 8]
  -- target_node_id, source_node_id, utc_time_us
  | systemTimeResponse | systemTimeSet => [8, 8, 8]
  | netStateRequest | netStateReply | powerStateRequest => [8]
  -- node_id, port_len
  | powerStateReply => [8, 1]
  -- node id, force or ack_nack
  | rebootRequest | rebootReply => [8, 1]
  | netAssertQuiet => [8]
  -- target_node_id, source_node_id, partition, key_length
  | configGet | configDeleteRequest => [8, 8, 1, 1]
  -- target_node_id, source_node_id, partition, data_length
  | configValue => [8, 8, 1, 4]
  -- target_node_id, source_node_id, partition, key_length, data_length
  | configSet => [8, 8, 1, 1, 4]
  -- target_node_id, source_node_id, partition
  | configCommit | configStatusRequest | configClearRequest => [8, 8, 1]
  -- target_node_id, source_node_id, partition, committed, num_keys
  | configStatusResponse => [8, 8, 1, 1, 1]
  -- target_node_id, source_node_id, success, partition, key_length
  | configDeleteResponse => [8, 8, 1, 1, 1]
  -- target_node_id, source_node_id, success, partition
  | configClearResponse => [8, 8, 1, 1]
  -- frame_type, src_node_id, dst_node_id, image_size, chunk_size, crc16, two versions, filter_key,
  -- gitSHA
  | dfuStart => [1, 8, 8, 4, 2, 2, 1, 1, 4, 4]
  -- frame_type, src_node_id, dst_node_id, seq_num or payload_length
  | dfuPayloadReq | dfuPayload => [1, 8, 8, 2]
  -- frame_type, src_node_id, dst_node_id, success, err_code
  | dfuEnd | dfuAck | dfuAbort => [1, 8, 8, 1, 1]
  -- frame_type, src_node_id, dst_node_id
  | dfuHeartbeat | dfuRebootReq | dfuReboot | dfuBootComplete => [1, 8, 8]
  -- type, checksum, flags, reserved, seq_num, frag_total, frag_id, next_header
  | header => [2, 2, 1, 1, 4, 1, 1, 1]

/-- The swaps of `check_endianness` for a type: the index of the field and the width of the swap. -/
def swaps : BcmpMessageType → List (Nat × Nat)
  | ack => []
  | heartbeat => [(0, 8), (1, 4)]
  | echoRequest => [(0, 8), (1, 2), (2, 4), (3, 2)]
  | echoReply => [(0, 8), (1, 2), (2, 2), (3, 2)]
  | deviceInfoRequest => [(0, 8)]
  | deviceInfoReply => [(0, 8), (1, 2), (2, 2), (19, 4)]
  | protocolCapsRequest => [(0, 8), (1, 2)]
  | protocolCapsReply => [(0, 8), (1, 2), (2, 2)]
  | neighborTableRequest => [(0, 8)]
  | neighborTableReply => [(0, 8), (2, 2)]
  | resourceTableRequest => [(0, 8)]
  | resourceTableReply => [(0, 8), (1, 2), (2, 2)]
  | neighborProtoRequest => [(0, 8), (1, 2)]
  | neighborProtoReply => [(0, 8), (1, 2)]
  | systemTimeRequest => [(0, 8), (1, 8)]
  | systemTimeResponse => [(0, 8), (1, 8), (2, 8)]
  | systemTimeSet => [(0, 8), (1, 8), (2, 8)]
  | netStateRequest => [(0, 8)]
  | netStateReply => [(0, 8)]
  | powerStateRequest => [(0, 8)]
  | powerStateReply => [(0, 8)]
  | rebootRequest => [(0, 8)]
  | rebootReply => [(0, 8)]
  | netAssertQuiet => [(0, 8)]
  | configGet | configValue | configSet | configCommit | configStatusRequest | configStatusResponse
  | configDeleteRequest | configDeleteResponse | configClearRequest | configClearResponse
  | dfuStart | dfuPayloadReq | dfuPayload | dfuEnd | dfuAck | dfuAbort | dfuHeartbeat | dfuRebootReq
  | dfuReboot | dfuBootComplete => []
  | header => [(0, 2), (1, 2), (4, 4)]

/-- The offset of a field. -/
def fieldOffset (t : BcmpMessageType) (i : Nat) : Nat := (t.fields.take i).sum

/-- The size of the fixed fields. -/
def size (t : BcmpMessageType) : Nat := t.fields.sum

end BcmpMessageType

/-- `check_endianness` on a host. -/
def checkEndianness (o : ByteOrder) (buf : List UInt8) (type : UInt16) : List UInt8 :=
  match o, BcmpMessageType.ofCode type with
  | .big, some t => t.swaps.foldl (fun bs s => swapAt .big bs (t.fieldOffset s.1) s.2) buf
  | _, _ => buf

/-! ## Sending and receiving -/

section Host
variable {Handler Callback : Type} (o : ByteOrder)

/-- `BcmpHeader` in the memory of a host. -/
def headerOn (type checksum : UInt16) (seqNum : UInt32) : List UInt8 :=
  o.bytes 2 type.toNat ++ o.bytes 2 checksum.toNat ++ [0, 0] ++ o.bytes 4 seqNum.toNat ++ [0, 0, 0]

/-- `header->checksum = checksum` on a host. -/
def setChecksumOn (data : List UInt8) (checksum : UInt16) : List UInt8 :=
  (data.set 2 ((o.bytes 2 checksum.toNat).getD 0 0)).set 3 ((o.bytes 2 checksum.toNat).getD 1 0)

/-- The number in `len` bytes of a buffer, on a host. -/
def fieldOn (data : List UInt8) (off len : Nat) : Nat := o.nat ((data.drop off).take len)

/-- `serialize` on a host. -/
def serializeOn (p : PacketInfo Handler Callback) (taken : Bool) (node : Option Nat) (now : UInt32)
    (packet : Packet) (data : List UInt8) (type : UInt16) (seqNum : UInt32) (cb : Option Callback) :
    Option (PacketInfo Handler Callback × Packet × BmErr) :=
  if !p.initialized then some (p, packet, .einval)
  else do
    let data := checkEndianness o data type
    match ← p.packetList.getItem type.toUInt32 with
    | none => some (p, packet, .enodev)
    | some cfg => do
      let seq := serializeSeqNum p cfg seqNum
      let p ← serializeSequence p cfg taken node now type cb
      let rest := packet.data.drop (bcmpHeaderSize + data.length)
      let header := checkEndianness o (headerOn o type 0 seq) BcmpMessageType.header.code
      let packet := { packet with data := header ++ data ++ rest }
      let checksum := p.checksum packet ((data.length + bcmpHeaderSize) % 2 ^ 32)
      some (p, { packet with data := setChecksumOn o packet.data checksum }, .ok)

/-- `clear_ports_legacy` and `clear_ingress_port` on a host. The legacy ports are the low half of
the second word of the address, and so not the same bytes on every host. -/
def clearPortsOn (src : List UInt8) : List UInt8 :=
  match o with
  | .little => clearPorts src
  | .big => ((src.set 6 0).set 7 0).set 2 (src.getD 2 0 &&& 0xF)

/-- `process_received_message` up to the checksum test and the header, on a host. -/
def receiveOn (p : PacketInfo Handler Callback) (packet : Packet) (size : Nat) :
    Except BmErr BcmpProcessData :=
  if !p.initialized then .error .einval
  else
    let ingressPort := (packet.src.getD 2 0 >>> 4) &&& 0xF
    let src := clearPortsOn o packet.src
    let checksumRead := UInt16.ofNat (fieldOn o packet.data 2 2)
    let zeroed : Packet := ⟨src, packet.dst, setChecksumOn o packet.data 0⟩
    let checksumCalc := p.checksum zeroed ((size + bcmpHeaderSize) % 2 ^ 32)
    if checksumCalc ≠ checksumRead then .error .ebadmsg
    else
      let data := setChecksumOn o zeroed.data checksumRead
      let header := checkEndianness o (data.take bcmpHeaderSize) BcmpMessageType.header.code
      .ok ⟨header, data.drop bcmpHeaderSize, size, src, packet.dst, ingressPort⟩

/-- `process_received_message` behind the header, on a host. -/
def dispatchOn (p : PacketInfo Handler Callback) (takenFind takenTake : Bool)
    (data : BcmpProcessData) :
    Option (PacketInfo Handler Callback × BmErr × Option (Call Handler Callback)) := do
  let type := UInt16.ofNat (fieldOn o data.header 0 2)
  let seqNum := UInt32.ofNat (fieldOn o data.header 6 4)
  match ← p.packetList.getItem type.toUInt32 with
  | none => some (p, .enodev, none)
  | some cfg =>
    let data := { data with payload := checkEndianness o data.payload type }
    if cfg.isReply then do
      match ← sequenceListFindMessage p takenFind seqNum with
      | some element => do
        let (p, cb) ← takeMessage p takenTake element seqNum
        some (p, .ok, deliver cfg cb data)
      | none => some (p, .ok, deliver cfg none data)
    else some (p, .ok, deliver cfg none data)

/-- `process_received_message` on a host. -/
def processReceivedMessageOn (p : PacketInfo Handler Callback) (takenFind takenTake : Bool)
    (packet : Packet) (size : Nat) :
    Option (PacketInfo Handler Callback × BmErr × Option (Call Handler Callback)) :=
  match receiveOn o p packet size with
  | .error err => some (p, err, none)
  | .ok data => dispatchOn o p takenFind takenTake data

/-- The same module on a big-endian host: the checksum of the network stack is a number whose bytes
in memory are those on the wire, so that it is the swapped one. -/
def PacketInfo.onBigEndian (p : PacketInfo Handler Callback) : PacketInfo Handler Callback :=
  { p with checksum := fun packet size => swap16 (p.checksum packet size) }

end Host

/-! ## The little-endian host

The definitions are those of `Packet` there. -/

section Little
variable {Handler Callback : Type}

theorem checkEndianness_little (buf : List UInt8) (type : UInt16) :
    checkEndianness .little buf type = buf := rfl

theorem serializeOn_little : @serializeOn Handler Callback .little = serialize := rfl

theorem processReceivedMessageOn_little :
    @processReceivedMessageOn Handler Callback .little = processReceivedMessage := rfl

end Little

/-! ## The swaps of a type -/

namespace BcmpMessageType

theorem ofCode_code (t : BcmpMessageType) : ofCode t.code = some t := by
  cases t <;> rfl

/-- The offsets and widths of the swaps. -/
def swapSpans (t : BcmpMessageType) : List (Nat × Nat) :=
  t.swaps.map fun s => (t.fieldOffset s.1, s.2)

/-- The fields of an echo request after its swaps: that of the sequence number takes in the field
behind it, which is then swapped once more. -/
def swapEchoRequest : List (List UInt8) → List (List UInt8)
  | [target, id, seqNum, payloadLen] => [target.reverse, id.reverse, payloadLen.reverse, seqNum]
  | chunks => chunks

/-- The fields of a message after the swaps of its type. -/
def swapFields (t : BcmpMessageType) (chunks : List (List UInt8)) : List (List UInt8) :=
  if t = .echoRequest then swapEchoRequest chunks
  else if t.swaps = [] then chunks
  else chunks.map List.reverse

theorem swapFields_length {t : BcmpMessageType} {chunks : List (List UInt8)}
    (h : chunks.map List.length = t.fields) : (t.swapFields chunks).map List.length = t.fields := by
  unfold swapFields
  split
  · rename_i hecho
    subst hecho
    have hfour : chunks.length = 4 := by simpa [fields] using congrArg List.length h
    obtain ⟨target, id, seqNum, payloadLen, rfl⟩ := List.length_eq_four.mp hfour
    simp_all [swapEchoRequest, fields]
  · split
    · exact h
    · simpa [Function.comp_def] using h

/-- The swaps are those of the fields of several bytes, or there are none; an echo request apart. -/
theorem swapSpans_cases (t : BcmpMessageType) :
    t = .echoRequest ∨ (t ≠ .echoRequest ∧ t.swaps = []) ∨
      (t ≠ .echoRequest ∧ t.swaps ≠ [] ∧ t.swapSpans = spans 0 t.fields) := by
  cases t <;> decide

/-- Every swap is of a width that there is a function for, and within the fixed fields. -/
theorem swapSpans_fit (t : BcmpMessageType) :
    ∀ s ∈ t.swapSpans, (s.2 = 2 ∨ s.2 = 4 ∨ s.2 = 8) ∧ s.1 + s.2 ≤ t.size := by
  cases t <;> decide

end BcmpMessageType

/-- The swaps of an echo request, one after the other. -/
theorem reverse_echoRequest {target id seqNum payloadLen : List UInt8} (rest : List UInt8)
    (htarget : target.length = 8) (hid : id.length = 2) (hseq : seqNum.length = 2)
    (hlen : payloadLen.length = 2) :
    BcmpMessageType.echoRequest.swapSpans.foldl (fun bs s => reverseAt bs s.1 s.2)
        (target ++ id ++ seqNum ++ payloadLen ++ rest) =
      target.reverse ++ id.reverse ++ payloadLen.reverse ++ seqNum ++ rest := by
  have hspans : BcmpMessageType.echoRequest.swapSpans = [(0, 8), (8, 2), (10, 4), (12, 2)] := by
    decide
  have hfirst : target.reverse.length = 8 := by simpa
  have hsecond : (target.reverse ++ id.reverse).length = 10 := by simp [htarget, hid]
  have hboth : (seqNum ++ payloadLen).length = 4 := by simp [hseq, hlen]
  have hthird : (target.reverse ++ id.reverse ++ payloadLen.reverse).length = 12 := by
    simp [htarget, hid, hlen]
  have hlast : seqNum.reverse.length = 2 := by simpa
  have h₁ := reverseAt_append [] target (id ++ seqNum ++ payloadLen ++ rest) List.length_nil htarget
  have h₂ := reverseAt_append target.reverse id (seqNum ++ payloadLen ++ rest) hfirst hid
  have h₃ := reverseAt_append _ (seqNum ++ payloadLen) rest hsecond hboth
  have h₄ := reverseAt_append _ seqNum.reverse rest hthird hlast
  simp only [List.nil_append, List.append_assoc, List.reverse_append,
    List.reverse_reverse] at h₁ h₂ h₃ h₄ ⊢
  rw [hspans, List.foldl_cons, List.foldl_cons, List.foldl_cons, List.foldl_cons, List.foldl_nil]
  rw [h₁, h₂, h₃, h₄]

/-- On a big-endian host the fields are those after the swaps, and nothing behind them is
changed. -/
theorem checkEndianness_big (t : BcmpMessageType) {chunks : List (List UInt8)}
    (h : chunks.map List.length = t.fields) (rest : List UInt8) :
    checkEndianness .big (chunks.flatten ++ rest) t.code =
      (t.swapFields chunks).flatten ++ rest := by
  have hlen : t.size ≤ (chunks.flatten ++ rest).length := by
    rw [List.length_append, List.length_flatten, h]
    exact Nat.le_add_right _ _
  have hfold : checkEndianness .big (chunks.flatten ++ rest) t.code =
      t.swapSpans.foldl (fun bs s => reverseAt bs s.1 s.2) (chunks.flatten ++ rest) := by
    rw [← foldl_swapAt .big fun s hs =>
      ⟨(t.swapSpans_fit s hs).1, (t.swapSpans_fit s hs).2.trans hlen⟩,
      BcmpMessageType.swapSpans, List.foldl_map]
    simp only [checkEndianness, t.ofCode_code]
  rw [hfold]
  obtain rfl | ⟨hecho, hnone⟩ | ⟨hecho, hsome, hspans⟩ := t.swapSpans_cases
  · obtain ⟨target, id, seqNum, payloadLen, rfl⟩ := List.length_eq_four.mp (by
      have := congrArg List.length h
      simpa [BcmpMessageType.fields] using this)
    obtain ⟨htarget, hid, hseq, hpayload⟩ : target.length = 8 ∧ id.length = 2 ∧ seqNum.length = 2 ∧
        payloadLen.length = 2 := by simpa [BcmpMessageType.fields] using h
    have hecho := reverse_echoRequest rest htarget hid hseq hpayload
    rw [BcmpMessageType.swapFields, if_pos rfl, BcmpMessageType.swapEchoRequest]
    simpa [List.append_assoc] using hecho
  · rw [BcmpMessageType.swapFields, if_neg hecho, if_pos hnone, BcmpMessageType.swapSpans, hnone]
    rfl
  · have hrev := reverse_spans h [] rest rfl
    rw [BcmpMessageType.swapFields, if_neg hecho, if_neg hsome, hspans]
    simpa using hrev

/-! ## The messages that keep their bytes -/

/-- A message of a type: a number for every field that its C type can hold. -/
structure Message (t : BcmpMessageType) where
  values : List Nat
  length_eq : values.length = t.fields.length
  fits : ∀ field ∈ t.fields.zip values, field.2 < 256 ^ field.1

namespace Message
variable {t : BcmpMessageType} (m : Message t)

/-- The struct in the memory of a host. -/
def struct (o : ByteOrder) : List UInt8 := pack o t.fields m.values

/-- The fields on the wire. -/
def wire : List (List UInt8) := fieldChunks .little t.fields m.values

theorem wire_length : m.wire.map List.length = t.fields := fieldChunks_length m.length_eq

theorem struct_little : m.struct .little = m.wire.flatten := rfl

theorem struct_big : m.struct .big = (m.wire.map List.reverse).flatten := by
  rw [wire, fieldChunks_reverse]
  rfl

/-- A host reads its struct back. -/
theorem unpack_struct (o : ByteOrder) (rest : List UInt8) :
    unpack o t.fields (m.struct o ++ rest) = m.values :=
  unpack_pack o m.length_eq m.fits rest

@[simp] theorem struct_length (o : ByteOrder) : (m.struct o).length = t.size :=
  pack_length o m.length_eq

/-- The bytes of the message survive the swaps of its type: all four bytes of the sequence number
and the payload length of an echo request are the same, and where the type has no swaps, every field
is the same in both byte orders. -/
def SurvivesSwaps : Prop :=
  if t = .echoRequest then
    m.wire.getD 2 [] = m.wire.getD 3 [] ∧ (m.wire.getD 2 []).reverse = m.wire.getD 2 []
  else t.swaps = [] → ∀ bytes ∈ m.wire, bytes.reverse = bytes

/-- The fields of an echo request. -/
theorem wire_echoRequest (m : Message .echoRequest) : ∃ target id seqNum payloadLen : List UInt8,
    m.wire = [target, id, seqNum, payloadLen] ∧ target.length = 8 ∧ id.length = 2 ∧
      seqNum.length = 2 ∧ payloadLen.length = 2 := by
  have hlen := m.wire_length
  have hfour : m.wire.length = 4 := by
    simpa [BcmpMessageType.fields] using congrArg List.length hlen
  obtain ⟨target, id, seqNum, payloadLen, hwire⟩ := List.length_eq_four.mp hfour
  refine ⟨target, id, seqNum, payloadLen, hwire, ?_⟩
  rw [hwire] at hlen
  simpa [BcmpMessageType.fields] using hlen

/-- A big-endian host puts the fields on the wire that a little-endian one does. -/
theorem swapFields_reverse_iff : t.swapFields (m.wire.map List.reverse) = m.wire ↔
    m.SurvivesSwaps := by
  unfold SurvivesSwaps BcmpMessageType.swapFields
  by_cases hecho : t = .echoRequest
  · subst hecho
    obtain ⟨target, id, seqNum, payloadLen, hwire, -⟩ := m.wire_echoRequest
    rw [if_pos rfl, if_pos rfl, hwire]
    simp only [List.map_cons, List.map_nil, BcmpMessageType.swapEchoRequest, List.reverse_reverse]
    grind
  · rw [if_neg hecho, if_neg hecho]
    split
    · rename_i hnone
      have hself := List.map_inj_left (l := m.wire) (f := List.reverse) (g := id)
      simpa [hnone] using hself
    · rename_i hsome
      simp [hsome]

theorem SurvivesSwaps.swapFields {m : Message t} (h : m.SurvivesSwaps) :
    t.swapFields m.wire = m.wire.map List.reverse := by
  unfold SurvivesSwaps at h
  unfold BcmpMessageType.swapFields
  split at h
  · rename_i hecho
    subst hecho
    obtain ⟨target, id, seqNum, payloadLen, hwire, -⟩ := m.wire_echoRequest
    rw [hwire] at h
    obtain ⟨hsame, hself⟩ : seqNum = payloadLen ∧ seqNum.reverse = seqNum := h
    subst hsame
    rw [if_pos rfl, hwire]
    simp only [List.map_cons, List.map_nil, BcmpMessageType.swapEchoRequest, hself]
  · rename_i hecho
    rw [if_neg hecho]
    split
    · rename_i hnone
      exact (List.map_id' m.wire).symm.trans (List.map_inj_left.mpr fun c hc => (h hnone c hc).symm)
    · rfl

end Message

/-! ## The header -/

/-- The type is one whose swaps are those of its fields: a big-endian host reads the numbers that a
little-endian host reads. -/
theorem unpack_checkEndianness {t : BcmpMessageType} (hecho : t ≠ .echoRequest)
    (hsome : t.swaps ≠ []) {bs : List UInt8} (h : bs.length = t.size) :
    unpack .big t.fields (checkEndianness .big bs t.code) = unpack .little t.fields bs := by
  have hlen := List.map_splitLengths_length bs t.fields h.ge
  have hflat := List.flatten_splitLengths bs t.fields h.le
  have hswap := checkEndianness_big t hlen []
  have hrev : ((t.fields.splitLengths bs).map List.reverse).map List.length = t.fields := by
    simpa [Function.comp_def] using hlen
  have hbig := unpack_flatten .big hrev []
  have hlittle := unpack_flatten .little hlen []
  rw [BcmpMessageType.swapFields, if_neg hecho, if_neg hsome] at hswap
  rw [List.append_nil] at hswap hbig hlittle
  rw [hflat] at hswap hlittle
  rw [hswap, List.append_nil, hbig, hlittle]
  simp [ByteOrder.big_nat_reverse]

theorem unpack_header {hdr : List UInt8} (h : hdr.length = bcmpHeaderSize) :
    unpack .big BcmpMessageType.header.fields
        (checkEndianness .big hdr BcmpMessageType.header.code) =
      unpack .little BcmpMessageType.header.fields hdr :=
  unpack_checkEndianness (by decide) (by decide) h

theorem headerOn_eq_pack (o : ByteOrder) (type checksum : UInt16) (seqNum : UInt32) :
    headerOn o type checksum seqNum =
      pack o BcmpMessageType.header.fields [type.toNat, checksum.toNat, 0, 0, seqNum.toNat, 0, 0,
        0] := by
  cases o <;> rfl

/-- A big-endian host writes the header that a little-endian one does. -/
theorem checkEndianness_headerOn (type checksum : UInt16) (seqNum : UInt32) :
    checkEndianness .big (headerOn .big type checksum seqNum) BcmpMessageType.header.code =
      headerOn .little type checksum seqNum := by
  let values := [type.toNat, checksum.toNat, 0, 0, seqNum.toNat, 0, 0, 0]
  have hfields : values.length = BcmpMessageType.header.fields.length := rfl
  have hswap := checkEndianness_big .header (fieldChunks_length (o := .big) hfields) []
  rw [List.append_nil, List.append_nil] at hswap
  rw [headerOn_eq_pack, headerOn_eq_pack]
  refine hswap.trans ?_
  rw [BcmpMessageType.swapFields, if_neg (by decide), if_neg (by decide), fieldChunks_reverse_big]
  rfl

theorem fieldOn_type (o : ByteOrder) (hdr : List UInt8) :
    fieldOn o hdr 0 2 = (unpack o BcmpMessageType.header.fields hdr).getD 0 0 := rfl

theorem fieldOn_seqNum (o : ByteOrder) (hdr : List UInt8) :
    fieldOn o hdr 6 4 = (unpack o BcmpMessageType.header.fields hdr).getD 4 0 := by
  simp [fieldOn, unpack, BcmpMessageType.fields]

/-! ## The checksum -/

theorem bytes_swap16 (c : UInt16) : ByteOrder.bytes .big 2 (swap16 c).toNat =
    ByteOrder.bytes .little 2 c.toNat := by
  rw [ByteOrder.bytes, ByteOrder.bytes, swap16_bytes, List.reverse_reverse]

/-- The swapped checksum has the bytes of the checksum on a little-endian host. -/
theorem setChecksumOn_swap16 (data : List UInt8) (c : UInt16) :
    setChecksumOn .big data (swap16 c) = setChecksumOn .little data c := by
  rw [setChecksumOn, setChecksumOn, bytes_swap16]

theorem setChecksumOn_zero (data : List UInt8) :
    setChecksumOn .big data 0 = setChecksumOn .little data 0 := rfl

theorem fieldOn_checksum {data : List UInt8} (h : 4 ≤ data.length) :
    UInt16.ofNat (fieldOn .big data 2 2) = swap16 (UInt16.ofNat (fieldOn .little data 2 2)) := by
  apply swap16_ofNat
  simp
  omega

/-! ## What the receiving code sees -/

section Receiving
variable {Handler Callback : Type}

/-- What the code of a message type or of a requester reads in a message: the numbers in the header
and in the fixed fields, and the bytes behind them. -/
inductive Seen (Handler Callback : Type) where
  | process (handler : Handler) (header fields : List Nat) (rest : List UInt8) (size : Nat)
    (src dst : List UInt8) (ingressPort : UInt8)
  | reply (cb : Callback) (fields : List Nat) (rest : List UInt8)
  | expired (cb : Callback)

/-- A call as the code that is called sees it on a host. -/
def Call.seen (o : ByteOrder) (t : BcmpMessageType) : Call Handler Callback → Seen Handler Callback
  | .process handler data =>
    .process handler (unpack o BcmpMessageType.header.fields data.header)
      (unpack o t.fields data.payload) (data.payload.drop t.size) data.size data.src data.dst
      data.ingressPort
  | .reply cb payload => .reply cb (unpack o t.fields payload) (payload.drop t.size)
  | .expired cb => .expired cb

/-- The outcome of a received message as it is seen on a host. -/
def seenOutcome (o : ByteOrder) (t : BcmpMessageType)
    (r : PacketInfo Handler Callback × BmErr × Option (Call Handler Callback)) :
    PacketInfo Handler Callback × BmErr × Option (Seen Handler Callback) :=
  (r.1, r.2.1, r.2.2.map (Call.seen o t))

/-- Two hosts hold the same message. -/
structure SameMessage (t : BcmpMessageType) (big little : BcmpProcessData) : Prop where
  header : unpack .big BcmpMessageType.header.fields big.header =
    unpack .little BcmpMessageType.header.fields little.header
  fields : unpack .big t.fields big.payload = unpack .little t.fields little.payload
  rest : big.payload.drop t.size = little.payload.drop t.size
  size : big.size = little.size
  src : big.src = little.src
  dst : big.dst = little.dst
  ingressPort : big.ingressPort = little.ingressPort

theorem SameMessage.deliver {t : BcmpMessageType} {big little : BcmpProcessData}
    (h : SameMessage t big little) (cfg : BcmpPacketCfg Handler) (cb : Option Callback) :
    (deliver cfg cb big).map (Call.seen .big t) =
      (deliver cfg cb little).map (Call.seen .little t) := by
  cases cb with
  | some cb => simp [Bcmp.deliver, Call.seen, h.fields, h.rest]
  | none =>
    simp [Bcmp.deliver, Function.comp_def, Call.seen, h.header, h.fields, h.rest, h.size,
      h.src, h.dst, h.ingressPort]

@[simp] theorem PacketInfo.onBigEndian_packetList (p : PacketInfo Handler Callback) :
    p.onBigEndian.packetList = p.packetList := rfl

theorem sequenceListFindMessage_onBigEndian (p : PacketInfo Handler Callback) (taken : Bool)
    (seqNum : UInt32) :
    sequenceListFindMessage p.onBigEndian taken seqNum =
      sequenceListFindMessage p taken seqNum := rfl

theorem takeMessage_onBigEndian (p : PacketInfo Handler Callback) (taken : Bool) (element : Nat)
    (seqNum : UInt32) : takeMessage p.onBigEndian taken element seqNum =
      (takeMessage p taken element seqNum).map fun r => (r.1.onBigEndian, r.2) := by
  cases taken with
  | true =>
    simp only [takeMessage, PacketInfo.onBigEndian, ↓reduceIte]
    cases p.sequenceList.heap.lookup element with
    | none => rfl
    | some item =>
      cases p.sequenceList.remove seqNum <;> simp
  | false => rfl

/-- The message that a big-endian host makes of one that a little-endian host has received. -/
def BcmpProcessData.onBigEndian (data : BcmpProcessData) : BcmpProcessData :=
  { data with header := checkEndianness .big data.header BcmpMessageType.header.code }

/-- The bytes that hold the legacy ports on a host of either byte order are 0. -/
def NoLegacyPorts (src : List UInt8) : Prop :=
  src.getD 4 0 = 0 ∧ src.getD 5 0 = 0 ∧ src.getD 6 0 = 0 ∧ src.getD 7 0 = 0

/-- Hosts of both byte orders clear the same bytes exactly if there is nothing to clear. -/
theorem clearPortsOn_big_iff {src : List UInt8} :
    clearPortsOn .big src = clearPortsOn .little src ↔ NoLegacyPorts src := by
  constructor
  · intro h
    have hbyte (i : Nat) := congrArg (·.getD i 0) h
    have h₄ := hbyte 4
    have h₅ := hbyte 5
    have h₆ := hbyte 6
    have h₇ := hbyte 7
    simp only [clearPortsOn, clearPorts, List.getD_eq_getElem?_getD,
      List.getElem?_set] at h₄ h₅ h₆ h₇
    refine ⟨?_, ?_, ?_, ?_⟩ <;> grind
  · rintro ⟨h₄, h₅, h₆, h₇⟩
    have hsame {i : Nat} (hi : src.getD i 0 = 0) : src.set i 0 = src := by
      rw [← hi]
      exact set_getD_self src i 0
    simp only [clearPortsOn, clearPorts, hsame h₄, hsame h₅, hsame h₆, hsame h₇]

/-- A big-endian host receives what a little-endian one does, from a source without legacy ports. -/
theorem receiveOn_big (p : PacketInfo Handler Callback) {packet : Packet} (size : Nat)
    (hsrc : NoLegacyPorts packet.src) (h : 4 ≤ packet.data.length) :
    receiveOn .big p.onBigEndian packet size =
      (receiveOn .little p packet size).map BcmpProcessData.onBigEndian := by
  unfold receiveOn
  rw [fieldOn_checksum h, setChecksumOn_zero, clearPortsOn_big_iff.mpr hsrc]
  simp only [PacketInfo.onBigEndian, ne_eq, swap16_inj, setChecksumOn_swap16]
  split
  · rfl
  · split <;> rfl

/-- What a little-endian host makes of a packet that passes the checksum test. -/
theorem receiveOn_little {p : PacketInfo Handler Callback} {packet : Packet} {size : Nat}
    {data : BcmpProcessData} (h : receiveOn .little p packet size = .ok data) :
    data.header.length = min bcmpHeaderSize packet.data.length ∧
      headerType data.header = headerType packet.data ∧
      data.payload = packet.data.drop bcmpHeaderSize := by
  have hreceive : receive p packet size = .ok data := h
  unfold receive at hreceive
  split at hreceive
  · cases hreceive
  · dsimp only at hreceive
    split at hreceive
    · cases hreceive
    · injection hreceive with hdata
      subst hdata
      refine ⟨by simp, ?_, by simp [drop_setChecksum]⟩
      rw [headerType, fieldAt_take _ (by decide)]
      exact (headerType_setChecksum _ _).trans (headerType_setChecksum _ _)

/-- The messages of two hosts, with the payload of the big-endian one swapped. -/
theorem sameMessage_onBigEndian {t : BcmpMessageType} {m : Message t} (hm : m.SurvivesSwaps)
    {data : BcmpProcessData} {rest : List UInt8} (hlen : data.header.length = bcmpHeaderSize)
    (hpayload : data.payload = m.struct .little ++ rest) :
    SameMessage t { data.onBigEndian with payload := checkEndianness .big data.payload t.code }
      data := by
  have hswap : checkEndianness .big data.payload t.code = m.struct .big ++ rest := by
    have hbig := checkEndianness_big t m.wire_length rest
    rwa [hm.swapFields, ← m.struct_little, ← m.struct_big, ← hpayload] at hbig
  refine ⟨unpack_header hlen, ?_, ?_, rfl, rfl, rfl, rfl⟩
  · dsimp only
    rw [hswap, hpayload, m.unpack_struct, m.unpack_struct]
  · dsimp only
    rw [hswap, hpayload, List.drop_left' (by simp), List.drop_left' (by simp)]

/-- A big-endian host delivers what a little-endian one does. -/
theorem dispatchOn_big {t : BcmpMessageType} {m : Message t} (hm : m.SurvivesSwaps)
    (p : PacketInfo Handler Callback) (takenFind takenTake : Bool) {data : BcmpProcessData}
    {rest : List UInt8} (hlen : data.header.length = bcmpHeaderSize)
    (htype : headerType data.header = t.code)
    (hpayload : data.payload = m.struct .little ++ rest) :
    (dispatchOn .big p.onBigEndian takenFind takenTake data.onBigEndian).map (seenOutcome .big t) =
      (dispatchOn .little p takenFind takenTake data).map fun r =>
        seenOutcome .little t (r.1.onBigEndian, r.2) := by
  have hsame := sameMessage_onBigEndian hm hlen hpayload
  have hfields := unpack_header hlen
  have htypeBig : UInt16.ofNat (fieldOn .big data.onBigEndian.header 0 2) = t.code := by
    rw [fieldOn_type, BcmpProcessData.onBigEndian, hfields, ← fieldOn_type]
    exact htype
  have htypeLittle : UInt16.ofNat (fieldOn .little data.header 0 2) = t.code := htype
  have hseq : fieldOn .big data.onBigEndian.header 6 4 = fieldOn .little data.header 6 4 := by
    rw [fieldOn_seqNum, BcmpProcessData.onBigEndian, hfields, ← fieldOn_seqNum]
  have hdeliver (q : PacketInfo Handler Callback) (cfg : BcmpPacketCfg Handler)
      (cb : Option Callback) :
      seenOutcome .big t (q.onBigEndian, .ok, deliver cfg cb
          { data.onBigEndian with payload := checkEndianness .big data.payload t.code }) =
        seenOutcome .little t (q.onBigEndian, .ok, deliver cfg cb data) := by
    rw [seenOutcome, seenOutcome, hsame.deliver]
  unfold dispatchOn
  rw [htypeBig, htypeLittle, hseq, p.onBigEndian_packetList]
  dsimp only
  cases p.packetList.getItem t.code.toUInt32 with
  | none => rfl
  | some item =>
    cases item with
    | none => rfl
    | some cfg =>
      by_cases hreply : cfg.isReply
      · simp only [Option.bind_eq_bind, Option.bind_some, hreply, ↓reduceIte,
          sequenceListFindMessage_onBigEndian]
        cases sequenceListFindMessage p takenFind (.ofNat (fieldOn .little data.header 6 4)) with
        | none => rfl
        | some found =>
          cases found with
          | none => exact congrArg some (hdeliver p cfg none)
          | some element =>
            simp only [Option.bind_some, takeMessage_onBigEndian]
            cases takeMessage p takenTake element (.ofNat (fieldOn .little data.header 6 4)) with
            | none => rfl
            | some taken => exact congrArg some (hdeliver taken.1 cfg taken.2)
      · simp only [Option.bind_eq_bind, Option.bind_some, hreply, Bool.false_eq_true, ↓reduceIte]
        exact congrArg some (hdeliver p cfg none)

/-- The code that a message is for sees the same on both hosts. -/
theorem processReceivedMessageOn_big {t : BcmpMessageType} {m : Message t} (hm : m.SurvivesSwaps)
    (p : PacketInfo Handler Callback) (takenFind takenTake : Bool) {packet : Packet} (size : Nat)
    {hdr rest : List UInt8} (hsrc : NoLegacyPorts packet.src)
    (hpacket : packet.data = hdr ++ m.struct .little ++ rest) (hlen : hdr.length = bcmpHeaderSize)
    (htype : headerType hdr = t.code) :
    (processReceivedMessageOn .big p.onBigEndian takenFind takenTake packet size).map
        (seenOutcome .big t) =
      (processReceivedMessageOn .little p takenFind takenTake packet size).map fun r =>
        seenOutcome .little t (r.1.onBigEndian, r.2) := by
  have hle : bcmpHeaderSize ≤ packet.data.length := by simp [hpacket, hlen]
  have hfour : 4 ≤ packet.data.length := le_trans (by decide) hle
  unfold processReceivedMessageOn
  rw [receiveOn_big p size hsrc hfour]
  cases hreceive : receiveOn .little p packet size with
  | error err => rfl
  | ok data =>
    obtain ⟨hheader, hdataType, hpayload⟩ := receiveOn_little hreceive
    rw [Nat.min_eq_left hle] at hheader
    have htake : hdr = packet.data.take bcmpHeaderSize := by
      rw [hpacket, List.append_assoc, List.take_left' hlen]
    have hpacketType : headerType packet.data = t.code := by
      rw [← htype, htake, headerType, headerType, fieldAt_take _ (by decide)]
    rw [hpacket, List.append_assoc, List.drop_left' hlen] at hpayload
    exact dispatchOn_big hm p takenFind takenTake hheader (hdataType.trans hpacketType) hpayload

/-- A module that knows no types, with a checksum that is 0 for packets from one source and 1 for
all others. -/
def PacketInfo.onlyFrom (p : PacketInfo Handler Callback) (src : List UInt8) :
    PacketInfo Handler Callback :=
  { p with
    checksum := fun packet _ => if packet.src = src then 0 else 1
    initialized := true
    packetList := .empty }

/-- From a source with legacy ports a packet that passes the checksum test on a little-endian host
does not pass it on a big-endian one. -/
theorem processReceivedMessageOn_onlyFrom (p : PacketInfo Handler Callback) {packet : Packet}
    (hsrc : ¬ NoLegacyPorts packet.src) (type : UInt16) {rest : List UInt8}
    (hpacket : packet.data = header type 0 0 ++ rest) :
    let q := p.onlyFrom (clearPorts packet.src)
    processReceivedMessageOn .little q true true packet 0 = some (q, .enodev, none) ∧
      processReceivedMessageOn .big q.onBigEndian true true packet 0 =
        some (q.onBigEndian, .ebadmsg, none) := by
  intro q
  have hread : headerChecksum packet.data = 0 := by
    rw [hpacket]
    exact headerChecksum_header type 0 0 rest
  have hle : 4 ≤ packet.data.length := by
    rw [hpacket, List.length_append, header_length]
    exact le_trans (by decide) (Nat.le_add_right _ _)
  constructor
  · rw [processReceivedMessageOn_little, processReceivedMessage]
    unfold receive
    simp only [q, PacketInfo.onlyFrom, hread]
    rfl
  · have hbig : UInt16.ofNat (fieldOn .big packet.data 2 2) = swap16 0 := by
      rw [fieldOn_checksum hle]
      exact congrArg swap16 hread
    have hother : clearPortsOn .big packet.src ≠ clearPorts packet.src :=
      fun h => hsrc (clearPortsOn_big_iff.mp h)
    unfold processReceivedMessageOn receiveOn
    simp only [q, PacketInfo.onBigEndian, PacketInfo.onlyFrom, hbig, if_neg hother]
    rfl

end Receiving

/-! ## What is sent -/

section Sending
variable {Handler Callback : Type}

theorem PacketInfo.onBigEndian_checksum (p : PacketInfo Handler Callback) (packet : Packet)
    (size : Nat) :
    p.onBigEndian.checksum packet size = swap16 (p.checksum packet size) := rfl

theorem serializeSeqNum_onBigEndian (p : PacketInfo Handler Callback) (cfg : BcmpPacketCfg Handler)
    (seqNum : UInt32) : serializeSeqNum p.onBigEndian cfg seqNum =
    serializeSeqNum p cfg seqNum := rfl

theorem serializeSequence_onBigEndian (p : PacketInfo Handler Callback)
    (cfg : BcmpPacketCfg Handler)
    (taken : Bool) (node : Option Nat) (now : UInt32) (type : UInt16) (cb : Option Callback) :
    serializeSequence p.onBigEndian cfg taken node now type cb =
      (serializeSequence p cfg taken node now type cb).map PacketInfo.onBigEndian := by
  unfold serializeSequence
  split
  · rfl
  · split
    · unfold sequenceListAddMessage
      split
      · simp only [PacketInfo.onBigEndian]
        cases p.sequenceList.itemAdd _ _ _ <;> rfl
      · rfl
    · rfl

/-- A big-endian host sends the packet of a little-endian one whose data are those after the
swaps. -/
theorem serializeOn_big (p : PacketInfo Handler Callback) (taken : Bool) (node : Option Nat)
    (now : UInt32)
    (packet : Packet) (data : List UInt8) (type : UInt16) (seqNum : UInt32) (cb : Option Callback) :
    serializeOn .big p.onBigEndian taken node now packet data type seqNum cb =
      (serializeOn .little p taken node now packet
        (checkEndianness .big data type) type seqNum cb).map
        fun r => (r.1.onBigEndian, r.2) := by
  unfold serializeOn
  cases hinit : p.initialized with
  | false => simp [PacketInfo.onBigEndian, hinit]
  | true =>
    have hbig : p.onBigEndian.initialized = true := hinit
    rw [if_neg (by simp [hbig]), if_neg (by simp), p.onBigEndian_packetList]
    cases p.packetList.getItem type.toUInt32 with
    | none => rfl
    | some item =>
      cases item with
      | none => rfl
      | some cfg =>
        simp only [Option.bind_eq_bind, Option.bind_some, serializeSequence_onBigEndian,
          checkEndianness_headerOn,
          checkEndianness_little, serializeSeqNum_onBigEndian]
        cases serializeSequence p cfg taken node now type cb with
        | none => rfl
        | some p' =>
          simp only [Option.map_some, Option.bind_some, PacketInfo.onBigEndian_checksum,
            setChecksumOn_swap16]

/-- The payload of a packet that was sent. -/
theorem serializeOn_payload {p p' : PacketInfo Handler Callback} {taken : Bool}
    {node : Option Nat} {now : UInt32} {packet sent : Packet} {data : List UInt8} {type : UInt16}
    {seqNum : UInt32} {cb : Option Callback}
    (h : serializeOn .little p taken node now packet data type seqNum cb = some (p', sent, .ok)) :
    (sent.data.drop bcmpHeaderSize).take data.length = data := by
  have hsent : serialize p taken node now packet data type seqNum cb = some (p', sent, .ok) := h
  unfold serialize at hsent
  split at hsent
  · simp at hsent
  · rw [Option.bind_eq_bind, Option.bind_eq_some_iff] at hsent
    obtain ⟨item, -, hitem⟩ := hsent
    cases item with
    | none => simp at hitem
    | some cfg =>
      simp only [Option.bind_eq_bind, Option.bind_eq_some_iff, Option.some.injEq,
        Prod.mk.injEq] at hitem
      obtain ⟨p₁, -, -, rfl, -⟩ := hitem
      rw [drop_setChecksum, List.append_assoc, List.drop_left' (header_length _ _ _),
        List.take_left]

end Sending

/-! ## Endian independence -/

section Independence
variable {Handler Callback : Type} {t : BcmpMessageType} (m : Message t)

/-- Hosts of both byte orders see the same numbers in every packet with the message from a
source. -/
def SeenAlike (Handler Callback : Type) (src : List UInt8) : Prop :=
  ∀ (q : PacketInfo Handler Callback) (takenFind takenTake : Bool) (received : Packet) (size : Nat)
    (hdr rest : List UInt8), received.src = src →
    received.data = hdr ++ m.struct .little ++ rest → hdr.length = bcmpHeaderSize →
    headerType hdr = t.code →
    (processReceivedMessageOn .big q.onBigEndian takenFind takenTake received size).map
        (seenOutcome .big t) =
      (processReceivedMessageOn .little q takenFind takenTake received size).map fun r =>
        seenOutcome .little t (r.1.onBigEndian, r.2)

/-- What is seen alike comes from a source without legacy ports. -/
theorem SeenAlike.noLegacyPorts {m : Message t} {src : List UInt8}
    (h : SeenAlike m Handler Callback src) (p : PacketInfo Handler Callback) :
    NoLegacyPorts src := by
  by_contra hsrc
  let packet : Packet := ⟨src, [], header t.code 0 0 ++ m.struct .little ++ []⟩
  have hcode : headerType (header t.code 0 0) = t.code := by
    rw [← List.append_nil (header t.code 0 0)]
    exact headerType_header t.code 0 0 []
  have hpacket : packet.data = header t.code 0 0 ++ (m.struct .little ++ []) :=
    List.append_assoc _ _ _
  obtain ⟨hlittle, hbig⟩ := processReceivedMessageOn_onlyFrom p hsrc t.code hpacket
  have hseen := h (p.onlyFrom (clearPorts src)) true true packet 0 (header t.code 0 0) [] rfl rfl
    (header_length _ _ _) hcode
  rw [hlittle, hbig] at hseen
  have herr := congrArg (fun r => r.2.1) (Option.some.inj hseen)
  cases herr

variable {p p' : PacketInfo Handler Callback} {taken : Bool} {node : Option Nat} {now : UInt32}
  {packet sent : Packet} {rest : List UInt8} {seqNum : UInt32} {cb : Option Callback}

/-- A big-endian host sends the packet that a little-endian host does if and only if the bytes of
the message survive the swaps of its type. -/
theorem serializeOn_big_iff (hsent : serializeOn .little p taken node now packet
      (m.struct .little ++ rest) t.code seqNum cb = some (p', sent, .ok)) :
    serializeOn .big p.onBigEndian taken node now packet (m.struct .big ++ rest) t.code seqNum cb =
      some (p'.onBigEndian, sent, .ok) ↔ m.SurvivesSwaps := by
  have hrev : (m.wire.map List.reverse).map List.length = t.fields := by
    simpa [Function.comp_def] using m.wire_length
  have hswap := checkEndianness_big t hrev rest
  rw [← m.struct_big] at hswap
  rw [serializeOn_big, hswap]
  constructor
  · intro hbig
    obtain ⟨⟨q, sent', err⟩, hlittle, heq⟩ := Option.map_eq_some_iff.mp hbig
    obtain rfl : sent' = sent := congrArg (fun r => r.2.1) heq
    obtain rfl : err = .ok := congrArg (fun r => r.2.2) heq
    -- the two payloads are the same bytes of one packet
    have hpayload := serializeOn_payload hlittle
    have hlen : ((t.swapFields (m.wire.map List.reverse)).flatten ++ rest).length =
        (m.struct .little ++ rest).length := by
      rw [List.length_append, List.length_append, List.length_flatten,
        BcmpMessageType.swapFields_length hrev, m.struct_length, BcmpMessageType.size]
    rw [hlen, serializeOn_payload hsent, m.struct_little] at hpayload
    apply m.swapFields_reverse_iff.mp
    apply List.eq_iff_flatten_eq.mpr
    exact ⟨(List.append_cancel_right hpayload).symm,
      (BcmpMessageType.swapFields_length hrev).trans m.wire_length.symm⟩
  · intro hm
    rw [m.swapFields_reverse_iff.mpr hm, ← m.struct_little, hsent]
    rfl

/-- A message has the same bytes on the wire from hosts of either byte order, and is seen with the
same numbers by them when it comes from `src`, exactly if its bytes survive the swaps of its type
and there are no legacy ports in `src`. -/
theorem wire_format_independent_iff (src : List UInt8)
    (hsent : serializeOn .little p taken node now packet (m.struct .little ++ rest) t.code seqNum
      cb = some (p', sent, .ok)) :
    (serializeOn .big p.onBigEndian taken node now packet (m.struct .big ++ rest) t.code seqNum cb =
        some (p'.onBigEndian, sent, .ok) ∧ SeenAlike m Handler Callback src) ↔
      m.SurvivesSwaps ∧ NoLegacyPorts src := by
  rw [serializeOn_big_iff m hsent]
  refine and_congr_right fun hm => ⟨fun hseen => hseen.noLegacyPorts p, ?_⟩
  intro hsrc q takenFind takenTake received size hdr rest hreceived hdata hlen htype
  subst hreceived
  exact processReceivedMessageOn_big hm q takenFind takenTake size hsrc hdata hlen htype

end Independence

/-- A module with the types of a heartbeat and of an echo request, and with a sum of bytes for a
checksum. -/
def heartbeatsAndEchoes : PacketInfo Unit Unit where
  checksum packet size := .ofNat ((packet.src ++ packet.dst ++ packet.data.take size).map
    UInt8.toNat).sum
  initialized := true
  sequenceList := .empty
  packetList :=
    ((LL.empty.itemAdd 1 BcmpMessageType.heartbeat.code.toUInt32 ⟨false, false, some ()⟩).bind
      (LL.itemAdd · 2 BcmpMessageType.echoRequest.code.toUInt32 ⟨false, false, some ()⟩)).getD
      .empty
  messageCount := 0

/-- A heartbeat of a node that has been up for a second, for ten seconds. -/
def oneHeartbeat : Message .heartbeat where
  values := [1000000, 10]
  length_eq := rfl
  fits := by decide

/-- `fe80::9`, a source with ingress port 1. -/
def linkLocalNine : List UInt8 := [0xFE, 0x80, 0x10, 0, 0, 0, 0, 0, 0, 0, 0, 0, 0, 0, 0, 9]

theorem wire_format_independent_heartbeat : ∃ sent,
    serializeOn .little heartbeatsAndEchoes true none 0 ⟨[], [], []⟩
        (oneHeartbeat.struct .little ++ []) BcmpMessageType.heartbeat.code 0 none =
      some (heartbeatsAndEchoes, sent, .ok) ∧
    serializeOn .big heartbeatsAndEchoes.onBigEndian true none 0 ⟨[], [], []⟩
        (oneHeartbeat.struct .big ++ []) BcmpMessageType.heartbeat.code 0 none =
      some (heartbeatsAndEchoes.onBigEndian, sent, .ok) ∧
    SeenAlike oneHeartbeat Unit Unit linkLocalNine := by
  refine ⟨_, rfl, ?_⟩
  exact (wire_format_independent_iff oneHeartbeat linkLocalNine rfl).mpr
    ⟨by simp [Message.SurvivesSwaps, BcmpMessageType.swaps], by decide, by decide, by decide,
      by decide⟩

/-- The first request of a stream of echo requests, with no payload. -/
def oneEchoRequest : Message .echoRequest where
  values := [7, 5, 1, 0]
  length_eq := rfl
  fits := by decide

/-- A big-endian host sends the sequence number 1 of an echo request as 0, and the payload length 0
as 256. -/
theorem echoRequest_corrupted :
    (serializeOn .little heartbeatsAndEchoes true none 0 ⟨[], [], []⟩
        (oneEchoRequest.struct .little) BcmpMessageType.echoRequest.code 0 none).map
        (fun r => r.2.1.data.drop bcmpHeaderSize) =
      some [7, 0, 0, 0, 0, 0, 0, 0, 5, 0, 1, 0, 0, 0] ∧
    (serializeOn .big heartbeatsAndEchoes.onBigEndian true none 0 ⟨[], [], []⟩
        (oneEchoRequest.struct .big) BcmpMessageType.echoRequest.code 0 none).map
        (fun r => r.2.1.data.drop bcmpHeaderSize) =
      some [7, 0, 0, 0, 0, 0, 0, 0, 5, 0, 0, 0, 0, 1] := by
  constructor <;> decide +kernel

end BmCore.Bcmp
