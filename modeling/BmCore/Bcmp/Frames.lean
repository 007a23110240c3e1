import BmCore.Bcmp.Config
import BmCore.Network.Policy

/-!
# BCMP messages in frames

The way of a BCMP message through `bm_linux.c`: a packet is put behind an Ethernet and an IPv6
header and handed to the link layer, and a frame that comes up from it is queued for the BCMP
thread. `bcmp_ll_forward` sends a received message on, a copy for every port but the one it came
by, with the port in the destination address.

`Carrying` says that a frame carries a message to FF02::1; the ports in its source address and its
checksum may change on the way.
-/
namespace BmCore.Bcmp
open Library BmCore.Network

/-! ## Sending -/

/-- `nodeid_to_ip` with the prefix FE80. -/
def llAddr (nodeId : UInt64) : List UInt8 :=
  [0xFE, 0x80, 0, 0, 0, 0, 0, 0] ++ (leBytes 8 nodeId.toNat).reverse

/-- `mac_from_nodeid` -/
def macFromNodeid (nodeId : UInt64) : List UInt8 :=
  let mac := ((leBytes 6 nodeId.toNat).reverse)
  mac.set 0 ((byte mac 0 ||| 0x02) &&& ~~~ (0x01 : UInt8))

/-- `bm_ip_tx_perform`: the frame with a packet that goes to a multicast address. -/
def bmIpTxPerform (nodeId : UInt64) (packet : Packet) (dst : List UInt8) : List UInt8 :=
  [0x33, 0x33] ++ dst.drop 12 ++ macFromNodeid nodeId ++ [0x86, 0xDD] ++ [0x60, 0, 0, 0] ++
    [.ofNat (packet.data.length / 256), .ofNat packet.data.length, ipProtoBcmp, 64] ++
    packet.src ++ dst ++ packet.data

/-- `port_specific_dst` -/
def portSpecificDst (egressPort : UInt8) : List UInt8 := multicastLlAddr.set 13 egressPort

/-- `bcmp_ll_forward`, with memory for every copy. -/
def bcmpLlForward (nodeId : UInt64) (numPorts : UInt8) (checksum : Packet → Nat → UInt16)
    (data : BcmpProcessData) : List (List UInt8) :=
  ((List.range numPorts.toNat).filter fun i => UInt8.ofNat (i + 1) != data.ingressPort).map fun i =>
    bmIpTxPerform nodeId (forwardPacket checksum (llAddr nodeId) data)
      (portSpecificDst (.ofNat (i + 1)))

/-! ## Receiving -/

/-- What the callbacks of `packet_init` show of a frame. -/
def packetOf (frame : List UInt8) : Packet := ⟨srcIp frame, dstIp frame, frame.drop frameHdrLen⟩

/-- `message_get_checksum` of a packet. -/
def messageGetChecksum (packet : Packet) (size : Nat) : UInt16 :=
  ipv6PseudoChecksum packet.src packet.dst ipProtoBcmp size packet.data

/-- The BCMP path of `bm_l2_submit`: the size of the message that is queued. -/
def bmL2Submit (frame : List UInt8) : Option Nat :=
  if frame.length < frameHdrLen then none
  else if ethernetGetType frame ≠ ethernetTypeIpv6 then none
  else if ipv6GetPayloadLength frame + frameHdrLen > frame.length then none
  else if ipv6GetNextHeader frame = ipProtoBcmp then
    if ipv6GetPayloadLength frame < bcmpHeaderSize then none
    else some (ipv6GetPayloadLength frame)
  else none

/-! ## System time messages -/

/-- What a node does with a message that names its target. -/
inductive Outcome where
  | handled
  | forwarded
  | ignored
  deriving DecidableEq

def bcmpSystemTimeRequestMessage : UInt16 := 0x10
def bcmpSystemTimeResponseMessage : UInt16 := 0x11
def bcmpSystemTimeSetMessage : UInt16 := 0x12

/-- `bcmp_time_process_time_message`. A message for node 0 is not forwarded, and sets the time of
the node it comes to if it is a set message. -/
def bcmpTimeProcessTimeMessage (nodeId : UInt64) (data : BcmpProcessData) : Outcome :=
  let target := targetNodeId data.payload
  if target ≠ nodeId ∧ target ≠ 0 then .forwarded
  else if data.type = bcmpSystemTimeRequestMessage ∨
      data.type = bcmpSystemTimeResponseMessage then
    if target ≠ nodeId then .ignored else .handled
  else if data.type = bcmpSystemTimeSetMessage then .handled
  else .ignored

/-- The outcome of a call of `process_received_message`, for the handlers of config and system time
messages. -/
def outcomeOf {Callback : Type} (nodeId : UInt64) (data : BcmpProcessData) :
    Option (Call Processor Callback) → Outcome
  | some (.process .config _) =>
    match bcmpProcessConfigMessage nodeId data none with
    | .forward => .forwarded
    | .handle _ => .handled
  | some (.process .time _) => bcmpTimeProcessTimeMessage nodeId data
  | _ => .ignored

/-! ## Frames that carry a message -/

/-- The frame carries a message to FF02::1. -/
structure Carrying (type : UInt16) (seqNum : UInt32) (payload frame : List UInt8) : Prop where
  length : frame.length = frameHdrLen + bcmpHeaderSize + payload.length
  carries : Carries ipProtoBcmp frame
  payloadLength : ipv6GetPayloadLength frame = bcmpHeaderSize + payload.length
  dst : dstIp frame = multicastLlAddr
  type : headerType (frame.drop frameHdrLen) = type
  seqNum : headerSeqNum (frame.drop frameHdrLen) = seqNum
  payload : (frame.drop frameHdrLen).drop bcmpHeaderSize = payload

namespace Carrying
variable {type : UInt16} {seqNum : UInt32} {payload frame : List UInt8}

theorem setPortsByte (h : Carrying type seqNum payload frame) (v : UInt8) :
    Carrying type seqNum payload (setPortsByte frame v) := by
  have hdrop : (Network.setPortsByte frame v).drop frameHdrLen = frame.drop frameHdrLen := by
    rw [Network.setPortsByte, List.drop_set, if_pos (by decide)]
  refine ⟨by rw [setPortsByte_length, h.length], h.carries.setPortsByte v, by simpa using
    h.payloadLength, by simpa using h.dst, ?_, ?_, ?_⟩
  · rw [hdrop, h.type]
  · rw [hdrop, h.seqNum]
  · rw [hdrop, h.payload]

theorem setChecksum (h : Carrying type seqNum payload frame) (c : UInt16) :
    Carrying type seqNum payload (setUint16 frame bcmpChecksumOffset c) := by
  have hdrop : (setUint16 frame bcmpChecksumOffset c).drop frameHdrLen =
      Bcmp.setChecksum (frame.drop frameHdrLen) c := by
    simp only [setUint16, Bcmp.setChecksum, List.drop_set]
    rfl
  have hlow : ∀ i, i < frameHdrLen → byte (setUint16 frame bcmpChecksumOffset c) i =
      byte frame i := by
    intro i hi
    simp only [frameHdrLen] at hi
    unfold setUint16
    rw [byte_set_ne, byte_set_ne] <;> simp only [bcmpChecksumOffset, bcmpPacketOffset] <;> omega
  refine ⟨by simp [setUint16, h.length], h.carries.setUint16 (by decide) c, ?_, ?_, ?_, ?_, ?_⟩
  · rw [← h.payloadLength, ipv6GetPayloadLength, uint8ToUint16, hlow _ (by decide),
      hlow _ (by decide)]
    rfl
  · rw [setUint16, dstIp_set_of_ge (by decide), dstIp_set_of_ge (by decide), h.dst]
  · rw [hdrop, headerType_setChecksum, h.type]
  · rw [hdrop, headerSeqNum_setChecksum, h.seqNum]
  · rw [hdrop, drop_setChecksum, h.payload]

/-- The stamp of an egress port changes nothing of the message. -/
theorem addEgressPort (h : Carrying type seqNum payload frame) (port : UInt8) :
    Carrying type seqNum payload (networkAddEgressPort frame port) := by
  unfold networkAddEgressPort
  have hport := h.setPortsByte (portsByte frame ||| port)
  rw [Network.addEgressPort, hport.carries.updateChecksum_bcmp]
  exact hport.setChecksum _

theorem hdr_le (h : Carrying type seqNum payload frame) : frameHdrLen ≤ frame.length := by
  rw [h.length, Nat.add_assoc]
  exact Nat.le_add_right _ _

theorem fits (h : Carrying type seqNum payload frame) :
    bcmpHeaderSize + payload.length < 2 ^ 16 := by
  rw [← h.payloadLength]
  have hhigh := (byte frame ipv6PayloadLengthOffset).toNat_lt
  have hlow := (byte frame (ipv6PayloadLengthOffset + 1)).toNat_lt
  simp only [ipv6GetPayloadLength, uint8ToUint16]
  omega

theorem linkLocalFrame (h : Carrying type seqNum payload frame) (hports : portsByte frame = 0) :
    LinkLocalFrame frame := by
  refine ⟨h.carries.type, ?_, ?_, .inr ⟨h.carries.next, ?_⟩, by rw [hports]; decide⟩
  · rw [h.dst]
    decide
  · rw [h.payloadLength, h.length, Nat.add_assoc]
  · rw [h.payloadLength]
    exact Nat.le_add_right _ _

/-- The frame comes up to the BCMP thread with the ingress port in its source address, and is not
forwarded by the link layer. -/
theorem bmL2ProcessRxEvt (h : Carrying type seqNum payload frame) (ctx : BmL2Ctx)
    (routingCb : Option L2LinkLocalRoutingCb) (room : Bool) {q : UInt8}
    (hport : ffs (rxPortMask q) = q) (hne : q ≠ 0) :
    bmL2ProcessRxEvt ctx routingCb room frame (rxPortMask q) =
      ⟨none, some (Network.setPortsByte frame (setIngressNibble (portsByte frame) q))⟩ := by
  have hdst := (h.setPortsByte (setIngressNibble (portsByte frame) q)).dst
  have happly : (bmL2PolicyRxApply frame (rxPortMask q) ctx.allPortsMask routingCb) =
      (⟨true, 0, q⟩, Network.setPortsByte frame (setIngressNibble (portsByte frame) q)) := by
    unfold bmL2PolicyRxApply
    rw [if_neg (Nat.not_lt.mpr h.hdr_le), if_neg (by simp [h.carries.type])]
    have hglobal : isGlobalMulticast multicastLlAddr = false := by decide
    have hneighbor : isLinkLocalNeighborMulticast multicastLlAddr = true := by decide
    simp only [hport, if_neg hne, hdst, hglobal, hneighbor, Bool.false_eq_true, if_false, if_true]
    cases routingCb <;> rfl
  unfold Network.bmL2ProcessRxEvt
  rw [happly]
  simp

theorem bmL2Submit (h : Carrying type seqNum payload frame) :
    bmL2Submit frame = some (bcmpHeaderSize + payload.length) := by
  unfold Bcmp.bmL2Submit
  rw [if_neg (Nat.not_lt.mpr h.hdr_le), if_neg (by simp [h.carries.type]), h.payloadLength,
    if_neg (by rw [h.length]; omega), if_pos h.carries.next, if_neg (by omega)]

/-- What the handler of the message is given. -/
theorem receive_packetOf (h : Carrying type seqNum payload frame) {Callback : Type}
    {p : PacketInfo Processor Callback} {data : BcmpProcessData}
    (hreceive : receive p (packetOf frame) payload.length = .ok data) :
    data.type = type ∧ data.seqNum = seqNum ∧ data.payload = payload ∧
      data.size = payload.length ∧ data.header.length = bcmpHeaderSize ∧
      data.ingressPort = (portsByte frame >>> 4) &&& 0xF := by
  obtain ⟨htype, hnum, hpayload, hsize, hheader⟩ := receive_ok hreceive
  refine ⟨htype.trans h.type, hnum.trans h.seqNum, hpayload.trans h.payload, hsize, ?_, ?_⟩
  · rw [hheader, packetOf, List.length_drop, h.length]
    exact Nat.min_eq_left (by omega)
  · have hbyte : byte (srcIp frame) 2 = portsByte frame := byte_srcIp frame (by omega)
    unfold receive at hreceive
    split at hreceive
    · exact absurd hreceive (by simp)
    dsimp only at hreceive
    split at hreceive
    · exact absurd hreceive (by simp)
    obtain rfl := Except.ok.inj hreceive
    simp only [← hbyte, packetOf]
    rfl

end Carrying

/-! ## What the link layer is given -/

/-- A frame of a node up to its destination address. -/
def framePrefix (nodeId : UInt64) (len : Nat) (egressPort : UInt8) : List UInt8 :=
  [0x33, 0x33] ++ [0, egressPort, 0, 1] ++ macFromNodeid nodeId ++ [0x86, 0xDD] ++
    [0x60, 0, 0, 0] ++ [.ofNat (len / 256), .ofNat len, ipProtoBcmp, 64] ++ llAddr nodeId

theorem bmIpTxPerform_eq (nodeId : UInt64) {packet : Packet} (hsrc : packet.src = llAddr nodeId)
    (egressPort : UInt8) : bmIpTxPerform nodeId packet (portSpecificDst egressPort) =
      framePrefix nodeId packet.data.length egressPort ++
        (portSpecificDst egressPort ++ packet.data) := by
  rw [bmIpTxPerform, hsrc, List.append_assoc]
  rfl

section Output
variable {nodeId : UInt64} {packet : Packet} {egressPort : UInt8}

theorem byte_output (hsrc : packet.src = llAddr nodeId) :
    byte (bmIpTxPerform nodeId packet (portSpecificDst egressPort)) egressIdx = egressPort := by
  rw [bmIpTxPerform_eq nodeId hsrc]
  rfl

/-- The link layer clears the egress port, and the frame is for FF02::1. -/
theorem output_eq (hsrc : packet.src = llAddr nodeId) :
    (bmIpTxPerform nodeId packet (portSpecificDst egressPort)).set egressIdx 0 =
      framePrefix nodeId packet.data.length egressPort ++ (multicastLlAddr ++ packet.data) := by
  rw [bmIpTxPerform_eq nodeId hsrc]
  rfl

/-- A packet behind the headers of its node. -/
theorem carrying_output {type : UInt16} {seqNum : UInt32} {payload : List UInt8}
    (hsrc : packet.src = llAddr nodeId)
    (hlength : packet.data.length = bcmpHeaderSize + payload.length)
    (hfits : bcmpHeaderSize + payload.length < 2 ^ 16)
    (htype : headerType packet.data = type) (hseq : headerSeqNum packet.data = seqNum)
    (hpayload : packet.data.drop bcmpHeaderSize = payload) :
    Carrying type seqNum payload
        ((bmIpTxPerform nodeId packet (portSpecificDst egressPort)).set egressIdx 0) ∧
      portsByte ((bmIpTxPerform nodeId packet (portSpecificDst egressPort)).set egressIdx 0) =
        0 := by
  rw [output_eq hsrc]
  generalize hlen : packet.data.length = len at *
  have hdrop : (framePrefix nodeId len egressPort ++ (multicastLlAddr ++ packet.data)).drop
      frameHdrLen = packet.data := rfl
  have hlenBytes : ipv6GetPayloadLength (framePrefix nodeId len egressPort ++
      (multicastLlAddr ++ packet.data)) =
        (UInt8.ofNat (len / 256)).toNat * 256 + (UInt8.ofNat len).toNat := rfl
  have hhigh : byte (framePrefix nodeId len egressPort ++ (multicastLlAddr ++ packet.data)) 12 =
      0x86 := rfl
  have hlow : byte (framePrefix nodeId len egressPort ++ (multicastLlAddr ++ packet.data)) 13 =
      0xDD := rfl
  refine ⟨⟨?_, ⟨?_, rfl⟩, ?_, rfl, ?_, ?_, ?_⟩, rfl⟩
  · have hprefix : (framePrefix nodeId len egressPort).length = 38 := rfl
    have hdst : multicastLlAddr.length = 16 := rfl
    rw [List.length_append, List.length_append, hprefix, hdst, hlen, hlength, frameHdrLen]
    omega
  · rw [ethernetGetType, uint8ToUint16, ethernetTypeOffset, hhigh, hlow]
    rfl
  · rw [hlenBytes, UInt8.toNat_ofNat', UInt8.toNat_ofNat', hlength]
    omega
  · rw [hdrop, htype]
  · rw [hdrop, hseq]
  · rw [hdrop, hpayload]

end Output

end BmCore.Bcmp
