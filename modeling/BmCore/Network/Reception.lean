import BmCore.Common.ByteSwap
import BmCore.Network.Policy

/-!
# The receive policy as a whole

`bm_l2_policy_rx_apply` acts on IPv6 frames with both addresses that came by a known port. It writes
the port into the upper nibble of the ports byte and decides by the destination: a global frame is
flooded, a frame to the neighbors stays, and about any other one the routing callback is asked.
Clearing the ports of a copy gives the received frame with an empty ports byte. -/
namespace BmCore.Network
open Library

/-- `ip_to_nodeid` on a little-endian host. -/
def ipToNodeid (ip : BmIpAddr) : UInt64 :=
  let word (i : Nat) : UInt32 := swap32 (.ofNat (leNat (((List.ofFn ip).drop (4 * i)).take 4)))
  ((word 2).toUInt64 <<< 32) ||| (word 3).toUInt64

/-- The frames that the policy acts on. -/
def ActedOn (frame : List UInt8) (ingressPortMask : UInt16) : Prop :=
  frameHdrLen ≤ frame.length ∧ ethernetGetType frame = ethernetTypeIpv6 ∧ ingressPortMask ≠ 0

/-- The law of the receive policy, for what it returns and the frame that it leaves. -/
structure RxLaw (frame : List UInt8) (ingressPortMask allPortsMask : UInt16)
    (routingCb : Option L2LinkLocalRoutingCb) (result : BmL2PolicyRxResult) (left : List UInt8) :
    Prop where
  /-- Only the upper nibble of the ports byte may change. -/
  kept : left = setPortsByte frame (portsByte left) ∧
    portsByte left &&& (0x0F : UInt8) = portsByte frame &&& (0x0F : UInt8)
  nodeId : ipToNodeid (addrAt left ipv6SourceAddressOffset) =
    ipToNodeid (addrAt frame ipv6SourceAddressOffset)
  /-- A frame that is not acted on is submitted as it is, and no callback has a say. -/
  ignored : ¬ ActedOn frame ingressPortMask →
    ∀ cb, bmL2PolicyRxApply frame ingressPortMask allPortsMask cb = ({}, frame)
  ingress : ActedOn frame ingressPortMask → ∀ portIdx < 15, ingressPortMask = .ofNat (2 ^ portIdx) →
    (portsByte left).toNat / 16 = portIdx + 1 ∧ result.ingressPortNum.toNat = portIdx + 1
  globalMulticast : ActedOn frame ingressPortMask → isGlobalMulticast (dstIp frame) = true →
    result.shouldSubmit = true ∧ result.egressMask = allPortsMask &&& ~~~ ingressPortMask
  neighborMulticast : ActedOn frame ingressPortMask → isLinkLocalNeighborMulticast (dstIp frame)
  = true →
    result.shouldSubmit = true ∧ result.egressMask = 0
  other : ActedOn frame ingressPortMask → isGlobalMulticast (dstIp frame) = false →
    isLinkLocalNeighborMulticast (dstIp frame) = false →
    match routingCb with
    | some cb =>
      let routed := cb result.ingressPortNum 0 (addrAt left ipv6SourceAddressOffset)
        (addrAt frame ipv6DestinationAddressOffset)
      result.shouldSubmit = routed.shouldSubmit ∧ result.egressMask = routed.egressMask
    | none => result.shouldSubmit = true ∧ result.egressMask = 0
  forwarded : ActedOn frame ingressPortMask → bmL2PolicyPrepareForwardedCopy left = clearPorts frame

section Bytes
variable {frame : List UInt8}

/-- The node id is not in the ports byte. -/
theorem ipToNodeid_setPortsByte (frame : List UInt8) (v : UInt8) :
    ipToNodeid (addrAt (setPortsByte frame v) ipv6SourceAddressOffset) =
      ipToNodeid (addrAt frame ipv6SourceAddressOffset) := by
  have hdrop : ∀ k, 3 ≤ k → (List.ofFn (addrAt (setPortsByte frame v) ipv6SourceAddressOffset)).drop
    k =
      (List.ofFn (addrAt frame ipv6SourceAddressOffset)).drop k := by
    intro k hk
    apply List.ext_getElem
    · simp
    · intro i h₁ h₂
      rw [List.getElem_drop, List.getElem_drop, List.getElem_ofFn, List.getElem_ofFn]
      refine byte_set_ne ?_
      simp only [ipv6IngressEgressPortsOffset]
      omega
  unfold ipToNodeid
  dsimp only
  rw [hdrop (4 * 2) (by decide), hdrop (4 * 3) (by decide)]

theorem addrAt_dst_setPortsByte (frame : List UInt8) (v : UInt8) :
    addrAt (setPortsByte frame v) ipv6DestinationAddressOffset =
    addrAt frame ipv6DestinationAddressOffset := by
  funext i
  refine byte_set_ne ?_
  simp only [ipv6IngressEgressPortsOffset, ipv6SourceAddressOffset, ipv6DestinationAddressOffset]
  omega

theorem setIngressNibble_low (b p : UInt8) :
    setIngressNibble b p &&& (0x0F : UInt8) = b &&& (0x0F : UInt8) := by
  unfold setIngressNibble
  rw [← UInt8.toBitVec_inj]
  simp only [UInt8.toBitVec_and, UInt8.toBitVec_or, UInt8.toBitVec_shiftLeft]
  ext i hi
  interval_cases i <;> simp

theorem setIngressNibble_high (b p : UInt8) (h : p.toNat < 16) :
    (setIngressNibble b p).toNat / 16 = p.toNat := by
  have hlow : (b &&& (0x0F : UInt8)).toNat >>> 4 = 0 := by
    have hle : (b &&& (0x0F : UInt8)).toNat ≤ 15 := Nat.and_le_right
    rw [Nat.shiftRight_eq_div_pow]
    omega
  have hhigh : (p <<< (4 : UInt8)).toNat >>> 4 = p.toNat := by
    have hshift : (p <<< (4 : UInt8)).toNat = p.toNat * 16 := by
      rw [UInt8.toNat_shiftLeft, Nat.shiftLeft_eq]
      change p.toNat * 16 % 256 = _
      omega
    rw [hshift, Nat.shiftRight_eq_div_pow]
    omega
  have hdiv : ∀ n : Nat, n / 16 = n >>> 4 := fun n => by rw [Nat.shiftRight_eq_div_pow]
  rw [setIngressNibble, and_0xF_of_lt h, UInt8.toNat_or, hdiv, Nat.shiftRight_or_distrib,
    hlow, hhigh,
    Nat.zero_or]

end Bytes

section Law
variable {frame : List UInt8} {ingressPortMask : UInt16}

/-- A frame that is not acted on. -/
theorem bmL2PolicyRxApply_of_not_actedOn (h : ¬ ActedOn frame ingressPortMask)
    (allPortsMask : UInt16)
    (cb : Option L2LinkLocalRoutingCb) :
    bmL2PolicyRxApply frame ingressPortMask allPortsMask cb = ({}, frame) := by
  have hzero : ffs 0 = 0 := by decide
  unfold bmL2PolicyRxApply
  split
  · rfl
  next hlen =>
    split
    · rfl
    next htype =>
      have hmask : ingressPortMask = 0 := by
        by_contra hne
        exact h ⟨Nat.not_lt.mp hlen, not_not.mp htype, hne⟩
      rw [hmask, hzero]
      rfl

/-- A frame that is acted on: the frame that is left, and the decision. -/
theorem bmL2PolicyRxApply_of_actedOn (h : ActedOn frame ingressPortMask) {portIdx : Nat}
    (hidx : portIdx < 15)
    (hmask : ingressPortMask = .ofNat (2 ^ portIdx)) (allPortsMask : UInt16)
    {routingCb : Option L2LinkLocalRoutingCb} (hcb : ∀ cb, routingCb = some cb → KeepsSrc cb) :
    let ingressPortNum := UInt8.ofNat (portIdx + 1)
    let left := setPortsByte frame (setIngressNibble (portsByte frame) ingressPortNum)
    bmL2PolicyRxApply frame ingressPortMask allPortsMask routingCb =
      (if isGlobalMulticast (dstIp frame) then
        { egressMask := allPortsMask &&& ~~~ ingressPortMask, ingressPortNum }
      else
        match routingCb with
        | none => { ingressPortNum }
        | some cb =>
          if isLinkLocalNeighborMulticast (dstIp frame) then { ingressPortNum }
          else
            let routed := cb ingressPortNum 0 (addrAt left ipv6SourceAddressOffset)
              (addrAt frame ipv6DestinationAddressOffset)
            ⟨routed.shouldSubmit, routed.egressMask, ingressPortNum⟩, left) := by
  intro ingressPortNum left
  have hnum : ingressPortNum.toNat = portIdx + 1 := by
    rw [UInt8.toNat_ofNat']
    omega
  have hffs : ffs ingressPortMask = ingressPortNum := by
    have hport : ffs (rxPortMask ingressPortNum) = ingressPortNum :=
      ffs_rxPortMask (by omega) (by omega)
    rwa [rxPortMask, hnum, Nat.add_sub_cancel, ← hmask] at hport
  have hne : ingressPortNum ≠ 0 := by
    intro hzero
    rw [hzero] at hnum
    cases hnum
  have hsrc (cb : L2LinkLocalRoutingCb) (hsome : routingCb = some cb) :
      setSrcAddr left (cb ingressPortNum 0 (addrAt left ipv6SourceAddressOffset)
        (addrAt frame ipv6DestinationAddressOffset)).src = left := by
    rw [hcb cb hsome, setSrcAddr_addrAt (by rw [setPortsByte_length]; exact h.1)]
  unfold bmL2PolicyRxApply
  rw [if_neg (Nat.not_lt.mpr h.1), if_neg (not_not.mpr h.2.1)]
  dsimp only
  rw [hffs, if_neg hne, dstIp_setPortsByte, addrAt_dst_setPortsByte]
  split
  · rfl
  · cases routingCb with
    | none => rfl
    | some cb =>
      dsimp only
      split
      · rfl
      · rw [hsrc cb rfl]

/-- What a frame that is not acted on leads to. -/
theorem rxLaw_of_not_actedOn (h : ¬ ActedOn frame ingressPortMask) (allPortsMask : UInt16)
    (routingCb : Option L2LinkLocalRoutingCb) :
    RxLaw frame ingressPortMask allPortsMask routingCb {} frame where
  kept := ⟨(set_byte_self frame _).symm, rfl⟩
  nodeId := rfl
  ignored _ := bmL2PolicyRxApply_of_not_actedOn h allPortsMask
  ingress hacted := absurd hacted h
  globalMulticast hacted := absurd hacted h
  neighborMulticast hacted := absurd hacted h
  other hacted := absurd hacted h
  forwarded hacted := absurd hacted h

theorem not_isLinkLocalNeighborMulticast {addr : List UInt8} (h : isGlobalMulticast addr = true) :
    isLinkLocalNeighborMulticast addr = false := by
  simp only [isLinkLocalNeighborMulticast, isGlobalMulticast, Bool.and_eq_true, beq_iff_eq] at h ⊢
  simp [h.1.2]

/-- The receive policy obeys its law on every frame, with every callback that leaves the frame
alone. -/
theorem rx_policy_law (frame : List UInt8) (ingressPortMask : UInt16)
    (hmask : ingressPortMask = 0 ∨ ∃ portIdx < 15, ingressPortMask =
      .ofNat (2 ^ portIdx)) (allPortsMask : UInt16)
    (routingCb : Option L2LinkLocalRoutingCb) (hcb : ∀ cb, routingCb = some cb → KeepsSrc cb) :
    RxLaw frame ingressPortMask allPortsMask routingCb
      (bmL2PolicyRxApply frame ingressPortMask allPortsMask routingCb).1
      (bmL2PolicyRxApply frame ingressPortMask allPortsMask routingCb).2 := by
  by_cases h : ActedOn frame ingressPortMask
  · obtain ⟨portIdx, hidx, hbit⟩ := hmask.resolve_left h.2.2
    have hnum : (UInt8.ofNat (portIdx + 1)).toNat = portIdx + 1 := by
      rw [UInt8.toNat_ofNat']
      omega
    have hports : ∀ v, portsByte (setPortsByte frame v) =
        v := fun v => portsByte_setPortsByte frame v h.1
    rw [bmL2PolicyRxApply_of_actedOn h hidx hbit allPortsMask hcb]
    constructor
    · exact ⟨by rw [hports], by rw [hports, setIngressNibble_low]⟩
    · exact ipToNodeid_setPortsByte frame _
    · exact fun hnot => absurd h hnot
    · intro _ portIdx' hidx' hbit'
      have hsame : portIdx' = portIdx := by
        have hhas := hasPort_single (i := portIdx) (by omega : portIdx' < 16)
        rw [← hbit', hbit, hasPort_single (by omega)] at hhas
        simpa using hhas.symm
      subst hsame
      refine ⟨?_, ?_⟩
      · rw [hports, setIngressNibble_high _ _ (by omega), hnum]
      · refine Eq.trans ?_ hnum
        dsimp only
        split
        · rfl
        · split
          · rfl
          · split <;> rfl
    · intro _ hglobal
      rw [if_pos hglobal]
      exact ⟨rfl, rfl⟩
    · intro _ hneighbor
      have hglobal : isGlobalMulticast (dstIp frame) = false := by
        by_contra hne
        rw [not_isLinkLocalNeighborMulticast (Bool.not_eq_false _ ▸ hne)] at hneighbor
        cases hneighbor
      rw [hglobal]
      cases routingCb with
      | none => exact ⟨rfl, rfl⟩
      | some cb =>
        simp only [Bool.false_eq_true, if_false, hneighbor, if_true]
        exact ⟨trivial, trivial⟩
    · intro _ hglobal hneighbor
      rw [hglobal, hneighbor]
      cases routingCb <;> exact ⟨rfl, rfl⟩
    · intro _
      rw [bmL2PolicyPrepareForwardedCopy_eq (by rw [setPortsByte_length]; exact h.1)]
      exact setPortsByte_setPortsByte frame _ 0
  · rw [bmL2PolicyRxApply_of_not_actedOn h]
    exact rxLaw_of_not_actedOn h allPortsMask routingCb

/-- A message to FF02::2 that came by port 3, with a callback that sends it on by port 1. -/
theorem rx_policy_law_emptyMessage :
    RxLaw (emptyMessage 2 0 0xAB 0) 4 0xF (some fun _ _ src _ => ⟨false, 1, src⟩)
      (bmL2PolicyRxApply (emptyMessage 2 0 0xAB 0) 4 0xF (some fun _ _ src _ => ⟨false, 1, src⟩)).1
      (bmL2PolicyRxApply (emptyMessage 2 0 0xAB 0)
        4 0xF (some fun _ _ src _ => ⟨false, 1, src⟩)).2 :=
  rx_policy_law (emptyMessage 2 0 0xAB 0) 4 (.inr ⟨2, by decide, by decide⟩) 0xF
    (some fun _ _ src _ => ⟨false, 1, src⟩) fun cb hcb => by
      obtain rfl := Option.some.inj hcb
      exact fun _ _ _ _ => rfl

end Law

end BmCore.Network
