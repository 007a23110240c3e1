import BmCore.Library.Accesses
import BmCore.Network.Reception
import BmCore.Network.Transmit

/-!
# Accesses to a frame

The receive path of `l2.c` and the transmission of the copy that it forwards once more, access by
access. The receive policy makes sure of the addresses before it looks at them; the transmit side
updates a checksum behind them and makes sure of nothing. -/
namespace BmCore.Network
open Library Access

namespace Traced

/-- What lies behind a frame. -/
def zeros : Nat → UInt8 := fun _ => 0

/-- `ethernet_get_type` -/
def ethernetGetType : Access UInt8 Nat := do
  let hi ← readAt ethernetTypeOffset
  let lo ← readAt (ethernetTypeOffset + 1)
  return hi.toNat * 256 + lo.toNat

def modifyByte (off : Nat) (f : UInt8 → UInt8) : Access UInt8 Unit := do
  let b ← readAt off
  writeAt off (f b)

def modifyUint16 (off : Nat) (f : UInt16 → UInt16) : Access UInt8 Unit := do
  let lo ← readAt off
  let hi ← readAt (off + 1)
  let v := f (.ofNat (lo.toNat + 256 * hi.toNat))
  writeAt off (.ofNat v.toNat)
  writeAt (off + 1) (.ofNat (v.toNat / 256))

def updateChecksum (udp : UInt8 → UInt8) (bcmp : UInt16 → UInt16) : Access UInt8 Unit := do
  let type ← ethernetGetType
  if type = ethernetTypeIpv6 then
    let nextHeader ← readAt ipv6NextHeaderOffset
    if nextHeader = ipProtoUdp then modifyByte udpChecksumOffset fun b => udp (b ^^^ 0xFF) ^^^ 0xFF
    else if nextHeader = ipProtoBcmp then
      modifyUint16 bcmpChecksumOffset fun c => bcmp (c ^^^ 0xFFFF) ^^^ 0xFFFF
    else return
  else return

/-- `network_revert_checksum` -/
def networkRevertChecksum (portNum : UInt8) : Access UInt8 Unit :=
  updateChecksum (· - portNum) (· - portNum.toUInt16)

/-- `network_add_egress_port` -/
def networkAddEgressPort (portNum : UInt8) : Access UInt8 Unit := do
  modifyByte ipv6IngressEgressPortsOffset (· ||| portNum)
  updateChecksum (· + portNum) (· + portNum.toUInt16)

/-- `is_global_multicast` on the destination. -/
def isGlobalMulticast : Access UInt8 Bool := do
  let b₀ ← readAt ipv6DestinationAddressOffset
  if b₀ = 0xFF then
    let b₁ ← readAt (ipv6DestinationAddressOffset + 1)
    if b₁ = 0x03 then
      let b₁₅ ← readAt (ipv6DestinationAddressOffset + 15)
      return b₁₅ == 0x01
    else return false
  else return false

/-- `is_link_local_multicast` on the destination. -/
def isLinkLocalMulticast : Access UInt8 Bool := do
  let b₀ ← readAt ipv6DestinationAddressOffset
  if b₀ = 0xFF then
    let b₁ ← readAt (ipv6DestinationAddressOffset + 1)
    return b₁ == 0x02
  else return false

/-- `is_link_local_neighbor_multicast` on the destination. -/
def isLinkLocalNeighborMulticast : Access UInt8 Bool := do
  let b₀ ← readAt ipv6DestinationAddressOffset
  if b₀ = 0xFF then
    let b₁ ← readAt (ipv6DestinationAddressOffset + 1)
    if b₁ = 0x02 then
      let b₁₅ ← readAt (ipv6DestinationAddressOffset + 15)
      return b₁₅ == 0x01
    else return false
  else return false

/-- `send_to_port`: the device reads the whole frame. -/
def sendToPort (length : Nat) (portNum : UInt8) : Access UInt8 Sent := do
  let payload ← readRange 0 length
  return (portNum, payload)

/-- The loop over the ports for a global frame. -/
def sendPorts (length : Nat) (portMask : UInt16) : List Nat → Access UInt8 (List Sent)
  | [] => pure []
  | portIdx :: portIdxs => do
    if hasPort portMask portIdx then
      let sent ← sendToPort length (.ofNat (portIdx + 1))
      let rest ← sendPorts length portMask portIdxs
      return sent :: rest
    else sendPorts length portMask portIdxs

/-- The loop over the ports for a link-local frame. -/
def stampPorts (length : Nat) (portMask : UInt16) : List Nat → Access UInt8 (List Sent)
  | [] => pure []
  | portIdx :: portIdxs => do
    if hasPort portMask portIdx then
      let portNum : UInt8 := .ofNat (portIdx + 1)
      networkAddEgressPort portNum
      let sent ← sendToPort length portNum
      writeAt ipv6IngressEgressPortsOffset 0
      networkRevertChecksum portNum
      let rest ← stampPorts length portMask portIdxs
      return sent :: rest
    else stampPorts length portMask portIdxs

/-- `bm_l2_process_tx_evt` -/
def bmL2ProcessTxEvt (ctx : BmL2Ctx) (length : Nat) (portMask : UInt16) :
    Access UInt8 (List Sent) := do
  let isGlobal ← isGlobalMulticast
  if isGlobal then
    if portMask = ctx.allPortsMask then
      let sent ← sendToPort length 0
      return [sent]
    else sendPorts length portMask (List.range ctx.numPorts.toNat)
  else
    let isLinkLocal ← isLinkLocalMulticast
    if isLinkLocal then stampPorts length portMask (List.range ctx.numPorts.toNat)
    else return []

def readAddr (off : Nat) : Access UInt8 BmIpAddr := do
  let bytes ← readRange off 16
  return fun i => bytes.getD i 0

/-- `bm_l2_policy_rx_apply`. The callback reads both addresses and may write the source. -/
def bmL2PolicyRxApply (length : Nat) (ingressPortMask allPortsMask : UInt16)
    (routingCb : Option L2LinkLocalRoutingCb) : Access UInt8 BmL2PolicyRxResult := do
  if length < frameHdrLen then return {}
  else
    let type ← ethernetGetType
    if type ≠ ethernetTypeIpv6 then return {}
    else
      let ingressPortNum := ffs ingressPortMask
      if ingressPortNum = 0 then return {}
      else
        modifyByte ipv6IngressEgressPortsOffset (setIngressNibble · ingressPortNum)
        let isGlobal ← isGlobalMulticast
        if isGlobal then return { egressMask :=
          allPortsMask &&& ~~~ ingressPortMask, ingressPortNum }
        else
          match routingCb with
          | none => return { ingressPortNum }
          | some routingCb =>
            let isNeighbor ← isLinkLocalNeighborMulticast
            if isNeighbor then return { ingressPortNum }
            else
              let src ← readAddr ipv6SourceAddressOffset
              let dst ← readAddr ipv6DestinationAddressOffset
              let routed := routingCb ingressPortNum 0 src dst
              writeRange ipv6SourceAddressOffset (List.ofFn routed.src)
              return ⟨routed.shouldSubmit, routed.egressMask, ingressPortNum⟩

/-- `bm_l2_policy_prepare_forwarded_copy` -/
def bmL2PolicyPrepareForwardedCopy (length : Nat) : Access UInt8 Unit := do
  if length < frameHdrLen then return
  else
    modifyByte ipv6IngressEgressPortsOffset clearIngressNibble
    modifyByte ipv6IngressEgressPortsOffset clearEgressNibble

/-- `bm_l2_process_rx_evt` up to the copy that is to be forwarded, with its mask. -/
def bmL2ProcessRxEvt (ctx : BmL2Ctx) (routingCb : Option L2LinkLocalRoutingCb) (room : Bool)
    (length : Nat)
    (portMask : UInt16) : Access UInt8 (Option (List UInt8 × UInt16)) := do
  let result ← bmL2PolicyRxApply length portMask ctx.allPortsMask routingCb
  if result.egressMask ≠ 0 ∧ room then
    let copy ← readRange 0 length
    return some (copy, result.egressMask &&& ctx.enabledPortsMask)
  else return none

/-! ## The same computations -/

section Run
variable (frame : List UInt8)

@[simp] theorem run_ethernetGetType :
    ethernetGetType.run zeros frame = (Network.ethernetGetType frame, frame) := rfl

@[simp] theorem run_modifyByte (off : Nat) (f : UInt8 → UInt8) :
    (modifyByte off f).run zeros frame = ((), frame.set off (f (byte frame off))) := rfl

@[simp] theorem run_modifyUint16 (off : Nat) (f : UInt16 → UInt16) :
    (modifyUint16 off f).run zeros frame = ((), setUint16 frame off (f (getUint16 frame off))) :=
    rfl

@[simp] theorem run_updateChecksum (udp : UInt8 → UInt8) (bcmp : UInt16 → UInt16) :
    (updateChecksum udp bcmp).run zeros frame = ((), Network.updateChecksum udp bcmp frame) := by
  have hnext : frame.getD ipv6NextHeaderOffset (zeros ipv6NextHeaderOffset) =
      ipv6GetNextHeader frame := rfl
  unfold updateChecksum Network.updateChecksum
  rw [run_bind, run_ethernetGetType]
  split
  · rw [run_bind, run_readAt, hnext]
    split
    · exact run_modifyByte frame _ _
    · split
      · exact run_modifyUint16 frame _ _
      · rfl
  · rfl

@[simp] theorem run_networkRevertChecksum (portNum : UInt8) :
    (networkRevertChecksum portNum).run zeros frame =
    ((), Network.networkRevertChecksum frame portNum) :=
  run_updateChecksum frame _ _

@[simp] theorem run_networkAddEgressPort (portNum : UInt8) :
    (networkAddEgressPort portNum).run zeros frame =
    ((), Network.networkAddEgressPort frame portNum) := by
  simp only [networkAddEgressPort, run_bind, run_modifyByte, run_updateChecksum]
  rfl

theorem byte_dstIp {k : Nat} (h : k < 16) :
    frame.getD (ipv6DestinationAddressOffset + k) (zeros (ipv6DestinationAddressOffset + k)) =
      byte (dstIp frame) k := by
  simp [byte, dstIp, zeros, List.getD_eq_getElem?_getD, h]

@[simp] theorem run_isGlobalMulticast :
    isGlobalMulticast.run zeros frame = (Network.isGlobalMulticast (dstIp frame), frame) := by
  have h₀ := byte_dstIp frame (by decide : 0 < 16)
  have h₁ := byte_dstIp frame (by decide : 1 < 16)
  have h₁₅ := byte_dstIp frame (by decide : 15 < 16)
  rw [Nat.add_zero] at h₀
  simp only [isGlobalMulticast, run_bind, run_readAt, h₀, Network.isGlobalMulticast]
  split
  · simp only [run_bind, run_readAt, h₁]
    split <;> simp_all
  · simp_all

@[simp] theorem run_isLinkLocalMulticast :
    isLinkLocalMulticast.run zeros frame = (Network.isLinkLocalMulticast (dstIp frame), frame) := by
  have h₀ := byte_dstIp frame (by decide : 0 < 16)
  have h₁ := byte_dstIp frame (by decide : 1 < 16)
  rw [Nat.add_zero] at h₀
  simp only [isLinkLocalMulticast, run_bind, run_readAt, h₀, Network.isLinkLocalMulticast]
  split <;> simp_all

@[simp] theorem run_isLinkLocalNeighborMulticast : isLinkLocalNeighborMulticast.run zeros frame =
    (Network.isLinkLocalNeighborMulticast (dstIp frame), frame) := by
  have h₀ := byte_dstIp frame (by decide : 0 < 16)
  have h₁ := byte_dstIp frame (by decide : 1 < 16)
  have h₁₅ := byte_dstIp frame (by decide : 15 < 16)
  rw [Nat.add_zero] at h₀
  simp only [isLinkLocalNeighborMulticast, run_bind, run_readAt, h₀,
    Network.isLinkLocalNeighborMulticast]
  split
  · simp only [run_bind, run_readAt, h₁]
    split <;> simp_all
  · simp_all

@[simp] theorem length_updateChecksum (udp : UInt8 → UInt8) (bcmp : UInt16 → UInt16) :
    (Network.updateChecksum udp bcmp frame).length = frame.length :=
  updateChecksum_length udp bcmp frame

@[simp] theorem length_networkAddEgressPort (portNum : UInt8) :
    (Network.networkAddEgressPort frame portNum).length = frame.length :=
  (length_updateChecksum _ _ _).trans (setPortsByte_length _ _)

@[simp] theorem length_networkRevertChecksum (portNum : UInt8) :
    (Network.networkRevertChecksum (clearPorts frame) portNum).length = frame.length :=
  (length_updateChecksum _ _ _).trans (setPortsByte_length _ _)

variable {frame} {length : Nat}

/-- The whole frame. -/
theorem range_getD (h : frame.length = length) :
    (List.range length).map (fun i => frame.getD (0 + i) (zeros (0 + i))) = frame := by
  apply List.ext_getElem
  · simp [h]
  · intro i h₁ h₂
    simp [h₂]

theorem run_sendToPort (h : frame.length = length) (portNum : UInt8) :
    (sendToPort length portNum).run zeros frame = ((portNum, frame), frame) := by
  simp only [sendToPort, run_bind, run_readRange, run_pure, range_getD h]

theorem run_sendPorts (h : frame.length = length) (portMask : UInt16) (portIdxs : List Nat) :
    (sendPorts length portMask portIdxs).run zeros frame =
      ((portIdxs.filter (hasPort portMask)).map fun portIdx => (.ofNat (portIdx + 1), frame),
        frame) := by
  induction portIdxs with
  | nil => rfl
  | cons portIdx portIdxs ih =>
    unfold sendPorts
    cases hbit : hasPort portMask portIdx with
    | false =>
      rw [if_neg Bool.false_ne_true, List.filter_cons_of_neg (by simp [hbit])]
      exact ih
    | true =>
      rw [if_pos rfl, List.filter_cons_of_pos hbit, run_bind, run_sendToPort h, run_bind, ih]
      rfl

theorem run_stampPorts (h : frame.length = length) (portMask : UInt16) (portIdxs : List Nat)
    (sents : List Sent) :
    portIdxs.foldl (txPort portMask) (sents, frame) =
      (sents ++ ((stampPorts length portMask portIdxs).run zeros frame).1,
        ((stampPorts length portMask portIdxs).run zeros frame).2) := by
  induction portIdxs generalizing frame sents with
  | nil => simp [stampPorts]
  | cons portIdx portIdxs ih =>
    rw [List.foldl_cons]
    unfold stampPorts
    cases hbit : hasPort portMask portIdx with
    | false =>
      rw [if_neg Bool.false_ne_true, txPort, hbit]
      exact ih h sents
    | true =>
      let portNum : UInt8 := .ofNat (portIdx + 1)
      have hstamped : (Network.networkAddEgressPort frame portNum).length = length := by simp [h]
      have hround : (Network.networkRevertChecksum
        (clearPorts (Network.networkAddEgressPort frame portNum))
        portNum).length = length := by simp [h]
      rw [if_pos rfl, txPort, hbit]
      refine (ih hround (sents ++ [(portNum, Network.networkAddEgressPort frame portNum)])).trans ?_
      rw [run_bind, run_networkAddEgressPort, run_bind, run_sendToPort hstamped, run_bind,
        run_writeAt, run_bind,
        run_networkRevertChecksum, run_bind, run_pure, List.append_assoc]
      rfl

/-- The frames that are sent. -/
theorem run_bmL2ProcessTxEvt (h : frame.length = length) (ctx : BmL2Ctx) (portMask : UInt16) :
    ((bmL2ProcessTxEvt ctx length portMask).run zeros frame).1 =
    Network.bmL2ProcessTxEvt ctx frame portMask := by
  unfold bmL2ProcessTxEvt Network.bmL2ProcessTxEvt sendGlobalMulticastPacket
  rw [run_bind, run_isGlobalMulticast]
  dsimp only
  split
  · split
    · rw [run_bind, run_sendToPort h]
      rfl
    · rw [run_sendPorts h]
  · rw [run_bind, run_isLinkLocalMulticast]
    dsimp only
    split
    · rw [run_stampPorts h]
      rfl
    · rfl

theorem run_readAddr (frame : List UInt8) (off : Nat) :
    (readAddr off).run zeros frame = (addrAt frame off, frame) := by
  simp only [readAddr, run_bind, run_readRange, run_pure]
  refine congrArg (·, frame) (funext fun i => ?_)
  simp [addrAt, byte, zeros, i.isLt]

/-- What the policy returns and leaves. -/
theorem run_bmL2PolicyRxApply (h : frame.length = length) (ingressPortMask allPortsMask : UInt16)
    (routingCb : Option L2LinkLocalRoutingCb) :
    (bmL2PolicyRxApply length ingressPortMask allPortsMask routingCb).run zeros frame =
      Network.bmL2PolicyRxApply frame ingressPortMask allPortsMask routingCb := by
  unfold bmL2PolicyRxApply Network.bmL2PolicyRxApply
  rw [h]
  split
  · rfl
  next hlen =>
    rw [run_bind, run_ethernetGetType]
    dsimp only
    split
    · rfl
    · split
      · rfl
      · have hset : frame.set ipv6IngressEgressPortsOffset (setIngressNibble (byte frame
            ipv6IngressEgressPortsOffset) (ffs ingressPortMask)) =
              setPortsByte frame (setIngressNibble (portsByte frame) (ffs ingressPortMask)) := rfl
        rw [run_bind, run_modifyByte, run_bind, run_isGlobalMulticast, hset]
        dsimp only
        split
        · rfl
        · cases routingCb with
          | none => rfl
          | some cb =>
            dsimp only
            rw [run_bind, run_isLinkLocalNeighborMulticast]
            dsimp only
            split
            · rfl
            · rw [run_bind, run_readAddr, run_bind, run_readAddr, run_bind, run_writeRange]
              · rfl
              · rw [List.length_ofFn, setPortsByte_length]
                simp only [frameHdrLen, ipv6SourceAddressOffset] at hlen ⊢
                omega

/-- The copy that is to be forwarded is taken of the frame that the policy leaves. -/
theorem run_bmL2ProcessRxEvt (h : frame.length = length) (ctx : BmL2Ctx)
    (routingCb : Option L2LinkLocalRoutingCb) (room : Bool) (portMask : UInt16) :
    let applied := Network.bmL2PolicyRxApply frame portMask ctx.allPortsMask routingCb
    ((bmL2ProcessRxEvt ctx routingCb room length portMask).run zeros frame).1 =
      if applied.1.egressMask ≠ 0 ∧ room then
        some (applied.2, applied.1.egressMask &&& ctx.enabledPortsMask)
      else none := by
  have hlen : (Network.bmL2PolicyRxApply frame portMask ctx.allPortsMask routingCb).2.length =
      length := by
    rw [← run_bmL2PolicyRxApply h, length_run, h]
  unfold bmL2ProcessRxEvt
  rw [run_bind, run_bmL2PolicyRxApply h]
  dsimp only
  split
  · rw [run_bind, run_readRange, run_pure, range_getD hlen]
  · rfl

/-- The copy with its ports cleared. -/
theorem run_bmL2PolicyPrepareForwardedCopy (h : frame.length = length) :
    ((bmL2PolicyPrepareForwardedCopy length).run zeros frame).2 =
      Network.bmL2PolicyPrepareForwardedCopy frame := by
  unfold bmL2PolicyPrepareForwardedCopy Network.bmL2PolicyPrepareForwardedCopy
  rw [h]
  split
  · rfl
  next hlen =>
    rw [run_bind, run_modifyByte, run_modifyByte, byte_set_self, List.set_set]
    · rfl
    · simp only [frameHdrLen, ipv6IngressEgressPortsOffset, ipv6SourceAddressOffset] at hlen ⊢
      omega

end Run

/-! ## Within the frame -/

section Bounds
variable {frame : List UInt8} {length : Nat}

/-- The frame reaches as far as the bytes of the checksum that are updated. -/
def ReachesChecksum (frame : List UInt8) : Prop :=
  (Carries ipProtoUdp frame → udpChecksumOffset < frame.length) ∧
    (Carries ipProtoBcmp frame → bcmpChecksumOffset + 1 < frame.length)

theorem within_modifyByte {off : Nat} {f : UInt8 → UInt8} :
    (modifyByte off f).Within zeros frame ↔ off < frame.length := by
  simp [modifyByte, within_bind, within_readAt, within_writeAt]

theorem within_modifyUint16 {off : Nat} {f : UInt16 → UInt16} :
    (modifyUint16 off f).Within zeros frame ↔ off + 1 < frame.length := by
  simp only [modifyUint16, within_bind, within_readAt, within_writeAt, run_readAt, run_writeAt,
    List.length_set]
  omega

theorem within_ethernetGetType (h : frameHdrLen ≤ frame.length) :
    ethernetGetType.Within zeros frame := by
  simp only [frameHdrLen] at h
  simp only [ethernetGetType, within_bind, within_readAt, run_readAt, ethernetTypeOffset]
  exact ⟨by omega, by omega, within_pure _⟩

/-- The destination address is in a frame that has its addresses. -/
theorem dst_lt (h : frameHdrLen ≤ frame.length) {k : Nat} (hk : k < 16) :
    ipv6DestinationAddressOffset + k < frame.length := by
  simp only [frameHdrLen] at h
  simp only [ipv6DestinationAddressOffset]
  omega

theorem within_isGlobalMulticast (h : frameHdrLen ≤ frame.length) :
    isGlobalMulticast.Within zeros frame := by
  unfold isGlobalMulticast
  refine within_bind.mpr ⟨within_readAt.mpr (dst_lt h (by decide : 0 < 16)), ?_⟩
  split
  · refine within_bind.mpr ⟨within_readAt.mpr (dst_lt h (by decide)), ?_⟩
    split
    · exact within_bind.mpr ⟨within_readAt.mpr (dst_lt h (by decide)), within_pure _⟩
    · exact within_pure _
  · exact within_pure _

theorem within_isLinkLocalMulticast (h : frameHdrLen ≤ frame.length) :
    isLinkLocalMulticast.Within zeros frame := by
  unfold isLinkLocalMulticast
  refine within_bind.mpr ⟨within_readAt.mpr (dst_lt h (by decide : 0 < 16)), ?_⟩
  split
  · exact within_bind.mpr ⟨within_readAt.mpr (dst_lt h (by decide)), within_pure _⟩
  · exact within_pure _

theorem within_isLinkLocalNeighborMulticast (h : frameHdrLen ≤ frame.length) :
    isLinkLocalNeighborMulticast.Within zeros frame := by
  unfold isLinkLocalNeighborMulticast
  refine within_bind.mpr ⟨within_readAt.mpr (dst_lt h (by decide : 0 < 16)), ?_⟩
  split
  · refine within_bind.mpr ⟨within_readAt.mpr (dst_lt h (by decide)), ?_⟩
    split
    · exact within_bind.mpr ⟨within_readAt.mpr (dst_lt h (by decide)), within_pure _⟩
    · exact within_pure _
  · exact within_pure _

theorem within_readAddr {off : Nat} (hoff : off + 16 ≤ frameHdrLen)
    (h : frameHdrLen ≤ frame.length) :
    (readAddr off).Within zeros frame :=
  within_bind.mpr ⟨within_readRange (Nat.le_trans hoff h), within_pure _⟩

theorem within_updateChecksum (h : frameHdrLen ≤ frame.length) (udp : UInt8 → UInt8)
    (bcmp : UInt16 → UInt16) :
    (updateChecksum udp bcmp).Within zeros frame ↔ ReachesChecksum frame := by
  have hnext : frame.getD ipv6NextHeaderOffset (zeros ipv6NextHeaderOffset) =
      ipv6GetNextHeader frame := rfl
  have hread : ipv6NextHeaderOffset < frame.length := Nat.lt_of_lt_of_le (by decide) h
  have hne : ipProtoUdp ≠ ipProtoBcmp := by decide
  unfold updateChecksum ReachesChecksum
  rw [within_bind, and_iff_right (within_ethernetGetType h), run_ethernetGetType]
  dsimp only
  split
  next htype =>
    rw [within_bind, within_readAt, and_iff_right hread, run_readAt, hnext]
    dsimp only
    split
    next hudp =>
      rw [within_modifyByte]
      refine ⟨fun hlt => ⟨fun _ => hlt, fun hbcmp => ?_⟩, fun hlt => hlt.1 ⟨htype, hudp⟩⟩
      exact absurd (hudp.symm.trans hbcmp.next) hne
    next hudp =>
      have hnot : ¬ Carries ipProtoUdp frame := fun h => hudp h.next
      split
      next hbcmp =>
        rw [within_modifyUint16]
        exact ⟨fun hlt => ⟨fun h => absurd h hnot, fun _ => hlt⟩, fun hlt => hlt.2 ⟨htype, hbcmp⟩⟩
      next hbcmp =>
        exact iff_of_true (within_pure ()) ⟨fun h => absurd h hnot, fun h => absurd h.next hbcmp⟩
  next htype => exact iff_of_true (within_pure ()) ⟨fun h => absurd h.type htype, fun h =>
    absurd h.type htype⟩

/-- Stamping leaves what stands before the addresses. -/
theorem untouched_of_lt {i : Nat} (h : i < ipv6SourceAddressOffset) : Untouched i := by
  simp only [ipv6SourceAddressOffset] at h
  constructor <;>
    simp only [ipv6IngressEgressPortsOffset, ipv6SourceAddressOffset, udpChecksumOffset,
      bcmpChecksumOffset,
      bcmpPacketOffset] <;> omega

/-- The kind of a frame stands before its addresses. -/
theorem carries_congr {nextHeader : UInt8} {frame' : List UInt8}
    (hbyte : ∀ i < ipv6SourceAddressOffset, byte frame' i = byte frame i) :
    Carries nextHeader frame' ↔ Carries nextHeader frame := by
  have htype : Network.ethernetGetType frame' = Network.ethernetGetType frame := by
    unfold Network.ethernetGetType uint8ToUint16
    rw [hbyte _ (by decide), hbyte (ethernetTypeOffset + 1) (by decide)]
  have hnext : ipv6GetNextHeader frame' = ipv6GetNextHeader frame :=
    hbyte ipv6NextHeaderOffset (by decide)
  constructor
  · exact fun h => ⟨htype.symm.trans h.type, hnext.symm.trans h.next⟩
  · exact fun h => ⟨htype.trans h.type, hnext.trans h.next⟩

theorem reachesChecksum_congr {frame' : List UInt8} (hlen : frame'.length = frame.length)
    (hbyte : ∀ i < ipv6SourceAddressOffset, byte frame' i = byte frame i) :
    ReachesChecksum frame' ↔ ReachesChecksum frame := by
  rw [ReachesChecksum, carries_congr hbyte, carries_congr hbyte, hlen, ReachesChecksum]

theorem within_networkAddEgressPort (h : frameHdrLen ≤ frame.length) (portNum : UInt8) :
    (networkAddEgressPort portNum).Within zeros frame ↔ ReachesChecksum frame := by
  have hports : ipv6IngressEgressPortsOffset < frame.length := Nat.lt_of_lt_of_le (by decide) h
  unfold networkAddEgressPort
  rw [within_bind, within_modifyByte, and_iff_right hports, run_modifyByte,
    within_updateChecksum (by rw [List.length_set]; exact h)]
  exact reachesChecksum_congr (List.length_set ..) fun i hi =>
    byte_set_ne (untouched_of_lt hi).ports

theorem within_sendToPort (h : frame.length = length) (portNum : UInt8) :
    (sendToPort length portNum).Within zeros frame :=
  within_bind.mpr ⟨within_readRange (by omega), within_pure _⟩

theorem within_sendPorts (h : frame.length = length) (portMask : UInt16) (portIdxs : List Nat) :
    (sendPorts length portMask portIdxs).Within zeros frame := by
  induction portIdxs with
  | nil => exact within_pure []
  | cons portIdx portIdxs ih =>
    unfold sendPorts
    split
    · refine within_bind.mpr ⟨within_sendToPort h _, within_bind.mpr ⟨?_, within_pure _⟩⟩
      rw [run_sendToPort h]
      exact ih
    · exact ih

/-- The loop over the ports stays within the frame unless it has a port to stamp and the frame does
not reach as far as its checksum. -/
theorem within_stampPorts (h : frame.length = length) (hlen : frameHdrLen ≤ length)
    (portMask : UInt16)
    (portIdxs : List Nat) : (stampPorts length portMask portIdxs).Within zeros frame ↔
      (portIdxs.filter (hasPort portMask) ≠ [] → ReachesChecksum frame) := by
  induction portIdxs generalizing frame with
  | nil => exact iff_of_true (within_pure []) fun hne => absurd rfl hne
  | cons portIdx portIdxs ih =>
    unfold stampPorts
    cases hbit : hasPort portMask portIdx with
    | false =>
      rw [if_neg Bool.false_ne_true, ih h, List.filter_cons_of_neg (by simp [hbit])]
    | true =>
      let portNum : UInt8 := .ofNat (portIdx + 1)
      let stamped := Network.networkAddEgressPort frame portNum
      let reverted := Network.networkRevertChecksum (clearPorts stamped) portNum
      have hstamped : stamped.length = length := (length_networkAddEgressPort frame portNum).trans h
      have hreverted : reverted.length = length :=
        (length_networkRevertChecksum stamped portNum).trans hstamped
      have hhdr : frameHdrLen ≤ frame.length := h ▸ hlen
      have hports : ipv6IngressEgressPortsOffset < stamped.length := by
        rw [hstamped]
        exact Nat.lt_of_lt_of_le (by decide) hlen
      have hcleared : ReachesChecksum (clearPorts stamped) ↔ ReachesChecksum frame := by
        refine reachesChecksum_congr ?_ fun i hi => ?_
        · rw [clearPorts, setPortsByte_length, hstamped, h]
        · have huntouched := untouched_of_lt hi
          exact (byte_set_ne huntouched.ports).trans
            (byte_networkAddEgressPort huntouched frame portNum)
      have hnext : ReachesChecksum reverted ↔ ReachesChecksum frame := by
        refine reachesChecksum_congr (by rw [hreverted, h]) fun i hi => ?_
        have huntouched := untouched_of_lt hi
        exact (byte_networkRevertChecksum huntouched stamped portNum).trans
          (byte_networkAddEgressPort huntouched frame portNum)
      rw [if_pos rfl, List.filter_cons_of_pos hbit, within_bind, within_networkAddEgressPort hhdr,
        run_networkAddEgressPort, within_bind, and_iff_right (within_sendToPort hstamped _),
        run_sendToPort hstamped, within_bind, within_writeAt, and_iff_right hports, run_writeAt,
        within_bind]
      have hrevert : (networkRevertChecksum portNum).Within zeros (clearPorts stamped) ↔
          ReachesChecksum frame := by
        rw [← hcleared]
        exact within_updateChecksum
          (by rw [clearPorts, setPortsByte_length, hstamped]; exact hlen) _ _
      have hloop : (stampPorts length portMask portIdxs).Within zeros reverted ↔
          (portIdxs.filter (hasPort portMask) ≠ [] → ReachesChecksum frame) := by
          rw [ih hreverted, hnext]
      constructor
      · exact fun hall _ => hall.1
      · intro hreaches
        have hframe := hreaches (List.cons_ne_nil _ _)
        refine ⟨hframe, hrevert.mpr hframe, within_bind.mpr ⟨?_, within_pure _⟩⟩
        rw [run_networkRevertChecksum]
        exact hloop.mpr fun _ => hframe

/-- The transmission of a frame that has its addresses stays within it unless a port is to be
stamped and the frame ends before its checksum. -/
theorem within_bmL2ProcessTxEvt (h : frame.length = length) (hlen : frameHdrLen ≤ length)
    (ctx : BmL2Ctx)
    (portMask : UInt16) : (bmL2ProcessTxEvt ctx length portMask).Within zeros frame ↔
      (Network.isLinkLocalMulticast (dstIp frame) = true → selected ctx portMask ≠ [] →
        ReachesChecksum frame) := by
  have hhdr : frameHdrLen ≤ frame.length := h ▸ hlen
  unfold bmL2ProcessTxEvt
  rw [within_bind, and_iff_right (within_isGlobalMulticast hhdr), run_isGlobalMulticast]
  dsimp only
  split
  next hglobal =>
    refine iff_of_true ?_ fun hlocal => ?_
    · split
      · exact within_bind.mpr ⟨within_sendToPort h 0, within_pure _⟩
      · exact within_sendPorts h portMask _
    · rw [not_isGlobalMulticast hlocal] at hglobal
      cases hglobal
  next =>
    rw [within_bind, and_iff_right (within_isLinkLocalMulticast hhdr), run_isLinkLocalMulticast]
    dsimp only
    split
    next hlocal =>
      rw [within_stampPorts h hlen]
      exact ⟨fun hports _ => hports, fun hports => hports hlocal⟩
    next hlocal => exact iff_of_true (within_pure []) fun hyes => absurd hyes hlocal

/-- The policy makes sure of the addresses first. -/
theorem within_bmL2PolicyRxApply (h : frame.length = length) (ingressPortMask allPortsMask : UInt16)
    (routingCb : Option L2LinkLocalRoutingCb) :
    (bmL2PolicyRxApply length ingressPortMask allPortsMask routingCb).Within zeros frame := by
  unfold bmL2PolicyRxApply
  split
  · exact within_pure _
  next hlt =>
    have hhdr : frameHdrLen ≤ frame.length := h ▸ Nat.not_lt.mp hlt
    refine within_bind.mpr ⟨within_ethernetGetType hhdr, ?_⟩
    split
    · exact within_pure _
    · dsimp only
      split
      · exact within_pure _
      · have hports : ipv6IngressEgressPortsOffset < frame.length :=
          Nat.lt_of_lt_of_le (by decide) hhdr
        refine within_bind.mpr ⟨within_modifyByte.mpr hports, ?_⟩
        rw [run_ethernetGetType, run_modifyByte]
        have hset : ∀ v, frameHdrLen ≤ (frame.set ipv6IngressEgressPortsOffset v).length :=
          fun v => by
          rw [List.length_set]
          exact hhdr
        refine within_bind.mpr ⟨within_isGlobalMulticast (hset _), ?_⟩
        rw [run_isGlobalMulticast]
        dsimp only
        split
        · exact within_pure _
        · split
          · exact within_pure _
          · refine within_bind.mpr ⟨within_isLinkLocalNeighborMulticast (hset _), ?_⟩
            rw [run_isLinkLocalNeighborMulticast]
            dsimp only
            split
            · exact within_pure _
            · refine within_bind.mpr
                ⟨within_readAddr (by decide) (hset _), within_bind.mpr ⟨?_, ?_⟩⟩
              · rw [run_readAddr]
                exact within_readAddr (by decide) (hset _)
              · rw [run_readAddr, run_readAddr]
                refine within_bind.mpr ⟨within_writeRange ?_, within_pure _⟩
                rw [List.length_ofFn]
                exact Nat.le_trans (by decide) (hset _)

theorem within_bmL2PolicyPrepareForwardedCopy (h : frame.length = length) :
    (bmL2PolicyPrepareForwardedCopy length).Within zeros frame := by
  unfold bmL2PolicyPrepareForwardedCopy
  split
  · exact within_pure _
  next hlt =>
    have hports : ipv6IngressEgressPortsOffset < frame.length :=
      Nat.lt_of_lt_of_le (by decide) (h ▸ Nat.not_lt.mp hlt)
    refine within_bind.mpr ⟨within_modifyByte.mpr hports, within_modifyByte.mpr ?_⟩
    rw [run_modifyByte, List.length_set]
    exact hports

theorem within_bmL2ProcessRxEvt (h : frame.length = length) (ctx : BmL2Ctx)
    (routingCb : Option L2LinkLocalRoutingCb) (room : Bool) (portMask : UInt16) :
    (bmL2ProcessRxEvt ctx routingCb room length portMask).Within zeros frame := by
  unfold bmL2ProcessRxEvt
  refine within_bind.mpr ⟨within_bmL2PolicyRxApply h portMask ctx.allPortsMask routingCb, ?_⟩
  split
  · refine within_bind.mpr ⟨within_readRange ?_, within_pure _⟩
    rw [length_run, h, Nat.zero_add]
  · exact within_pure _

end Bounds

end Traced

/-! ## Frames that end before their checksum -/

section Inside
variable {ctx : BmL2Ctx} {routingCb : Option L2LinkLocalRoutingCb} {frame : List UInt8}
    {portMask : UInt16}

theorem ffs_ne_zero (h : portMask ≠ 0) : ffs portMask ≠ 0 := by
  unfold ffs
  split
  next i hfind =>
    have hlt := List.mem_range.mp (List.mem_of_find?_eq_some hfind)
    rw [ne_eq, ← UInt8.toNat_inj, UInt8.toNat_ofNat']
    change ¬ (i + 1) % 256 = 0
    omega
  next hfind =>
    refine absurd (UInt16.toNat_inj.mp (Nat.eq_of_testBit_eq fun i => ?_)) h
    rw [List.find?_eq_none] at hfind
    by_cases hi : i < 16
    · have hbit := hfind i (List.mem_range.mpr hi)
      simpa [hasPort] using hbit
    · have hbit : hasPort portMask i = false := by
        by_contra hset
        exact hi (hasPort_lt (Bool.not_eq_false _ ▸ hset))
      exact hbit.trans (Nat.zero_testBit i).symm

/-- Writing the source address leaves the rest of the frame. -/
theorem byte_setSrcAddr (h : frameHdrLen ≤ frame.length) (src : BmIpAddr) {i : Nat}
    (hi : i < ipv6SourceAddressOffset ∨ ipv6DestinationAddressOffset ≤ i) :
    byte (setSrcAddr frame src) i = byte frame i := by
  simp only [frameHdrLen] at h
  simp only [ipv6SourceAddressOffset, ipv6DestinationAddressOffset] at hi
  simp only [byte, List.getD_eq_getElem?_getD, setSrcAddr, ipv6SourceAddressOffset,
    ipv6DestinationAddressOffset]
  rcases hi with hlow | hhigh
  · rw [List.append_assoc, List.getElem?_append_left (by simp; omega),
      List.getElem?_take_of_lt hlow]
  · rw [List.getElem?_append_right (by simp; omega), List.getElem?_drop]
    congr 2
    simp
    omega

/-- The source address with the ingress port, as a routing callback sees it. -/
def srcWithIngress (frame : List UInt8) (portMask : UInt16) : BmIpAddr :=
  addrAt (setPortsByte frame (setIngressNibble (portsByte frame) (ffs portMask)))
  ipv6SourceAddressOffset

/-- The decision of a routing callback on a frame. -/
def routedBy (routingCb : L2LinkLocalRoutingCb) (frame : List UInt8) (portMask : UInt16) : Routed :=
  routingCb (ffs portMask) 0 (srcWithIngress frame portMask)
  (addrAt frame ipv6DestinationAddressOffset)

/-- The policy changes the source address only. -/
theorem bmL2PolicyRxApply_left (frame : List UInt8) (portMask allPortsMask : UInt16)
    (routingCb : Option L2LinkLocalRoutingCb) :
    let left := (bmL2PolicyRxApply frame portMask allPortsMask routingCb).2
    left.length = frame.length ∧
      ∀ i, i < ipv6SourceAddressOffset ∨ ipv6DestinationAddressOffset ≤ i →
      byte left i = byte frame i := by
  intro left
  refine ⟨?_, ?_⟩
  · exact (congrArg (·.2.length)
      (Traced.run_bmL2PolicyRxApply rfl portMask allPortsMask routingCb)).symm.trans
      (length_run _ _)
  · have hports (v : UInt8) (i : Nat) (hi : i < ipv6SourceAddressOffset ∨
      ipv6DestinationAddressOffset ≤ i) :
        byte (setPortsByte frame v) i = byte frame i := by
      refine byte_set_ne ?_
      simp only [ipv6IngressEgressPortsOffset, ipv6SourceAddressOffset,
        ipv6DestinationAddressOffset] at hi ⊢
      omega
    change ∀ i, _ → byte (bmL2PolicyRxApply frame portMask allPortsMask routingCb).2 i =
      byte frame i
    unfold bmL2PolicyRxApply
    split
    · exact fun i _ => rfl
    next hlt =>
      have hhdr : frameHdrLen ≤ frame.length := Nat.not_lt.mp hlt
      split
      · exact fun i _ => rfl
      · dsimp only
        split
        · exact fun i _ => rfl
        · split
          · exact hports _
          · split
            · exact hports _
            · split
              · exact hports _
              · intro i hi
                exact (byte_setSrcAddr (by rw [setPortsByte_length]; exact hhdr) _ hi).trans
                  (hports _ i hi)

theorem dstIp_congr {frame' : List UInt8} (hlen : frame'.length = frame.length)
    (hbyte : ∀ i, ipv6DestinationAddressOffset ≤ i → byte frame' i = byte frame i) :
    dstIp frame' = dstIp frame := by
  unfold dstIp
  apply List.ext_getElem
  · simp [hlen]
  · intro i h₁ h₂
    simp only [List.length_take, List.length_drop] at h₁ h₂
    have hsame := hbyte (ipv6DestinationAddressOffset + i) (Nat.le_add_right _ _)
    simp only [byte, List.getD_eq_getElem?_getD] at hsame
    rw [List.getElem?_eq_getElem (by omega), List.getElem?_eq_getElem (by omega)] at hsame
    simpa using hsame

/-- What the policy lets pass on a link-local frame: the ports of the callback, unless it is for the
neighbors. -/
theorem bmL2PolicyRxApply_egressMask (hacted : ActedOn frame portMask)
    (hlocal : isLinkLocalMulticast (dstIp frame) = true) (allPortsMask : UInt16)
    (routingCb : Option L2LinkLocalRoutingCb) :
    (bmL2PolicyRxApply frame portMask allPortsMask routingCb).1.egressMask =
      match routingCb with
      | some cb =>
        if isLinkLocalNeighborMulticast (dstIp frame) then 0 else
        (routedBy cb frame portMask).egressMask
      | none => 0 := by
  unfold bmL2PolicyRxApply
  rw [if_neg (Nat.not_lt.mpr hacted.1), if_neg (not_not.mpr hacted.2.1)]
  dsimp only
  rw [if_neg (ffs_ne_zero hacted.2.2), dstIp_setPortsByte, not_isGlobalMulticast hlocal,
    addrAt_dst_setPortsByte]
  cases routingCb with
  | none => rfl
  | some cb =>
    dsimp only
    rw [if_neg Bool.false_ne_true]
    split <;> rfl

theorem egressMask_routed {cb : L2LinkLocalRoutingCb} (hcb : routingCb = some cb)
    (hacted : ActedOn frame portMask)
    (hlocal : isLinkLocalMulticast (dstIp frame) = true)
    (hneighbor : isLinkLocalNeighborMulticast (dstIp frame) = false) (allPortsMask : UInt16) :
    (bmL2PolicyRxApply frame portMask allPortsMask routingCb).1.egressMask =
      (routedBy cb frame portMask).egressMask := by
  subst hcb
  rw [bmL2PolicyRxApply_egressMask hacted hlocal, hneighbor]
  rfl

/-- The receive path and the transmission of the forwarded copy access nothing outside of the frame,
and what is sent differs from the received frame in the ports byte and the checksum only, as far as
the callback has not written the source address. -/
structure StaysInside (ctx : BmL2Ctx) (routingCb : Option L2LinkLocalRoutingCb) (room : Bool)
    (frame : List UInt8) (portMask : UInt16) : Prop where
  received : (Traced.bmL2ProcessRxEvt ctx routingCb room frame.length
  portMask).Within Traced.zeros frame
  forwarded : ∀ copy mask,
    ((Traced.bmL2ProcessRxEvt ctx routingCb room frame.length portMask).run Traced.zeros frame).1 =
        some (copy, mask) →
      (Traced.bmL2PolicyPrepareForwardedCopy frame.length).Within Traced.zeros copy ∧
        (Traced.bmL2ProcessTxEvt ctx frame.length mask).Within Traced.zeros
        (bmL2PolicyPrepareForwardedCopy copy)
  unchanged : ∀ copy mask, (bmL2ProcessRxEvt ctx routingCb room frame portMask).forwarded =
    some (copy, mask) →
    ∀ sent ∈ bmL2ProcessTxEvt ctx copy mask, sent.2.length = frame.length ∧
      ∀ i, Untouched i → (i < ipv6SourceAddressOffset ∨ ipv6DestinationAddressOffset ≤ i ∨
        ∀ cb, routingCb = some cb → KeepsSrc cb) → byte sent.2 i = byte frame i

/-- A frame that ends before the checksum of its protocol and is to be stamped for a port on its way
on. -/
structure StampedBeyond (ctx : BmL2Ctx) (routingCb : Option L2LinkLocalRoutingCb) (room : Bool)
    (frame : List UInt8) (portMask : UInt16) : Prop where
  acted : ActedOn frame portMask
  room : room = true
  linkLocal : isLinkLocalMulticast (dstIp frame) = true
  notNeighbor : isLinkLocalNeighborMulticast (dstIp frame) = false
  routed : ∃ cb, routingCb = some cb ∧
    selected ctx ((routedBy cb frame portMask).egressMask &&& ctx.enabledPortsMask) ≠ []
  ends : ¬ Traced.ReachesChecksum frame

/-- Only a frame that is acted on is forwarded. -/
theorem actedOn_of_egressMask {allPortsMask : UInt16}
    (h : (bmL2PolicyRxApply frame portMask allPortsMask routingCb).1.egressMask ≠ 0) :
    ActedOn frame portMask := by
  by_contra hnot
  rw [bmL2PolicyRxApply_of_not_actedOn hnot] at h
  exact h rfl

theorem egressMask_ne_zero {mask : UInt16} (h : selected ctx (mask &&& ctx.enabledPortsMask) ≠ []) :
    mask ≠ 0 := by
  rintro rfl
  refine h (List.filter_eq_nil_iff.mpr fun i _ => ?_)
  rw [hasPort_and, hasPort]
  simp

/-- The copy that the policy has prepared: as long as the frame, and the same outside of the source
address. -/
theorem prepared_copy (hlen : frameHdrLen ≤ frame.length) (portMask allPortsMask : UInt16)
    (routingCb : Option L2LinkLocalRoutingCb) :
    let copy := bmL2PolicyPrepareForwardedCopy (bmL2PolicyRxApply frame portMask allPortsMask
      routingCb).2
    copy.length = frame.length ∧
      ∀ i, i < ipv6SourceAddressOffset ∨ ipv6DestinationAddressOffset ≤ i → byte copy i =
      byte frame i := by
  intro copy
  obtain ⟨hsame, hbyte⟩ := bmL2PolicyRxApply_left frame portMask allPortsMask routingCb
  have hcopy : copy = clearPorts (bmL2PolicyRxApply frame portMask allPortsMask routingCb).2 :=
    bmL2PolicyPrepareForwardedCopy_eq (by rw [hsame]; exact hlen)
  rw [hcopy]
  refine ⟨(setPortsByte_length _ _).trans hsame, fun i hi => (byte_set_ne ?_).trans (hbyte i hi)⟩
  simp only [ipv6IngressEgressPortsOffset, ipv6SourceAddressOffset,
    ipv6DestinationAddressOffset] at hi ⊢
  omega

/-- What is sent of a copy, against the received frame. -/
theorem sent_unchanged {room : Bool} {copy : List UInt8} {mask : UInt16}
    (h : (bmL2ProcessRxEvt ctx routingCb room frame portMask).forwarded = some (copy, mask)) :
    ∀ sent ∈ bmL2ProcessTxEvt ctx copy mask, sent.2.length = frame.length ∧
      ∀ i, Untouched i → (i < ipv6SourceAddressOffset ∨ ipv6DestinationAddressOffset ≤ i ∨
        ∀ cb, routingCb = some cb → KeepsSrc cb) → byte sent.2 i = byte frame i := by
  intro sent hmem
  have hcond : (bmL2PolicyRxApply frame portMask ctx.allPortsMask routingCb).1.egressMask ≠ 0 ∧
      room = true := by
    by_contra hnot
    simp [bmL2ProcessRxEvt, hnot] at h
  have hlen := (actedOn_of_egressMask hcond.1).1
  have hcopy : copy =
      bmL2PolicyPrepareForwardedCopy
      (bmL2PolicyRxApply frame portMask ctx.allPortsMask routingCb).2 := by
    simp only [bmL2ProcessRxEvt, if_pos hcond] at h
    exact (Prod.mk.inj (Option.some.inj h)).1.symm
  obtain ⟨hsame, hbyte⟩ := prepared_copy hlen portMask ctx.allPortsMask routingCb
  rw [← hcopy] at hsame hbyte
  refine ⟨?_, fun i huntouched hi => ?_⟩
  · refine bmL2ProcessTxEvt_forall (P := fun sent => sent.length = frame.length) ?_ ?_ hsame ctx
      mask sent hmem
    · exact fun frame q hlen => (Traced.length_networkAddEgressPort frame q).trans hlen
    · exact fun frame q hlen => (Traced.length_networkRevertChecksum frame q).trans hlen
  · refine (bmL2ProcessTxEvt_byte huntouched ctx mask sent hmem).trans ?_
    rcases hi with hlow | hhigh | hcb
    · exact hbyte i (.inl hlow)
    · exact hbyte i (.inr hhigh)
    · rw [bmL2ProcessRxEvt_forwarded hlen hcb h]
      exact byte_set_ne huntouched.ports

/-- The transmission of the copy stays within it exactly when the copy is not stamped behind its
end. -/
theorem within_tx_copy (room : Bool)
    (hne : (bmL2PolicyRxApply frame portMask ctx.allPortsMask routingCb).1.egressMask ≠ 0)
    (hroom : room = true) :
    let applied := bmL2PolicyRxApply frame portMask ctx.allPortsMask routingCb
    (Traced.bmL2ProcessTxEvt ctx frame.length
    (applied.1.egressMask &&& ctx.enabledPortsMask)).Within Traced.zeros
      (bmL2PolicyPrepareForwardedCopy applied.2) ↔ ¬ StampedBeyond ctx routingCb room frame
      portMask := by
  intro applied
  have hacted := actedOn_of_egressMask hne
  obtain ⟨hsame, hbyte⟩ := prepared_copy hacted.1 portMask ctx.allPortsMask routingCb
  have hdst : dstIp (bmL2PolicyPrepareForwardedCopy applied.2) = dstIp frame :=
    dstIp_congr hsame fun i hi => hbyte i (.inr hi)
  rw [Traced.within_bmL2ProcessTxEvt hsame hacted.1, hdst,
    Traced.reachesChecksum_congr hsame fun i hi => hbyte i (.inl hi)]
  constructor
  · intro hreaches hbeyond
    obtain ⟨cb, hcb, hselected⟩ := hbeyond.routed
    have hmask : applied.1.egressMask = (routedBy cb frame portMask).egressMask :=
      egressMask_routed hcb hacted hbeyond.linkLocal hbeyond.notNeighbor ctx.allPortsMask
    rw [hmask] at hreaches
    exact hbeyond.ends (hreaches hbeyond.linkLocal hselected)
  · intro hnot hlocal hselected
    by_contra hends
    have happlied := bmL2PolicyRxApply_egressMask hacted hlocal ctx.allPortsMask routingCb
    cases hcb : routingCb with
    | none =>
      rw [hcb] at happlied hne
      exact hne happlied
    | some cb =>
      cases hneighbor : isLinkLocalNeighborMulticast (dstIp frame) with
      | true =>
        rw [hcb, hneighbor] at happlied
        rw [hcb] at hne
        exact hne happlied
      | false =>
        have hmask : applied.1.egressMask = (routedBy cb frame portMask).egressMask :=
          egressMask_routed hcb hacted hlocal hneighbor ctx.allPortsMask
        rw [hmask] at hselected
        exact hnot ⟨hacted, hroom, hlocal, hneighbor, ⟨cb, hcb, hselected⟩, hends⟩

/-- The link layer stays inside of a received frame exactly when it is not stamped behind its end on
its way on: a frame that is long enough for its addresses may still end before its checksum. -/
theorem l2_stays_inside_iff (ctx : BmL2Ctx) (routingCb : Option L2LinkLocalRoutingCb) (room : Bool)
    (frame : List UInt8) (portMask : UInt16) :
    StaysInside ctx routingCb room frame portMask ↔
      ¬ StampedBeyond ctx routingCb room frame portMask := by
  have hrun := Traced.run_bmL2ProcessRxEvt (rfl : frame.length = frame.length) ctx routingCb room
    portMask
  dsimp only at hrun
  constructor
  · intro hinside hbeyond
    obtain ⟨cb, hcb, hselected⟩ := hbeyond.routed
    have hne : (bmL2PolicyRxApply frame portMask ctx.allPortsMask routingCb).1.egressMask ≠ 0 := by
      rw [egressMask_routed hcb hbeyond.acted hbeyond.linkLocal hbeyond.notNeighbor]
      exact egressMask_ne_zero hselected
    rw [if_pos ⟨hne, hbeyond.room⟩] at hrun
    exact (within_tx_copy room hne hbeyond.room).mp (hinside.forwarded _ _ hrun).2 hbeyond
  · intro hnot
    refine ⟨Traced.within_bmL2ProcessRxEvt rfl ctx routingCb room portMask,
      fun copy mask hsome => ?_,
      fun copy mask hsome => sent_unchanged hsome⟩
    rw [hsome] at hrun
    split at hrun
    next hcond =>
      obtain ⟨rfl, rfl⟩ := Prod.mk.inj (Option.some.inj hrun)
      have hleft := (bmL2PolicyRxApply_left frame portMask ctx.allPortsMask routingCb).1
      exact ⟨Traced.within_bmL2PolicyPrepareForwardedCopy hleft,
        (within_tx_copy room hcond.1 hcond.2).mpr hnot⟩
    · cases hrun

/-- A BCMP frame to FF02::2 that ends with its addresses came by port 3 and is sent on by port 1. -/
theorem l2_stamps_beyond_frame :
    ¬ StaysInside ⟨3, 7, 7⟩ (some fun _ _ src _ => ⟨false, 1, src⟩) true
      ((emptyMessage 2 0 0xAB 0).take frameHdrLen) 4 := by
  intro hinside
  have hforwarded :=
    hinside.forwarded (((emptyMessage 2 0 0xAB 0).take frameHdrLen).set 24 0x30) 1
      (by decide +kernel)
  exact absurd hforwarded.2 (by decide +kernel)

end Inside

end BmCore.Network
