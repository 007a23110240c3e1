import BmCore.Network.L2

/-!
# The receive side of the link layer

`l2_policy.c` and the receive path of `l2.c`: the ingress port is written into the source address,
the routing decision is taken, and a copy with cleared ports is queued for the egress ports. The
routing callback of an application is a parameter; the one of the MAVLink middleware is here.
-/
namespace BmCore.Network

/-! ## Routing callbacks -/

/-- `BmIpAddr` -/
abbrev BmIpAddr := Fin 16 → UInt8

def addrAt (frame : List UInt8) (off : Nat) : BmIpAddr := fun i => byte frame (off + i)

/-- Write the source address. -/
def setSrcAddr (frame : List UInt8) (src : BmIpAddr) : List UInt8 :=
  frame.take ipv6SourceAddressOffset ++ List.ofFn src ++ frame.drop ipv6DestinationAddressOffset

/-- What a routing callback returns and leaves behind its pointers. -/
structure Routed where
  shouldSubmit : Bool
  egressMask : UInt16
  src : BmIpAddr

/-- `L2LinkLocalRoutingCb`, from ingress port, egress mask, source and destination. -/
abbrev L2LinkLocalRoutingCb := UInt8 → UInt16 → BmIpAddr → BmIpAddr → Routed

/-- `BmMiddlewareRoutingCb` -/
abbrev BmMiddlewareRoutingCb := UInt8 → UInt16 → BmIpAddr → Routed

/-- `mavlink_routing_cb` -/
def mavlinkRoutingCb (ctx : BmL2Ctx) : BmMiddlewareRoutingCb := fun ingressPort egressMask src =>
  let egressMask := (List.range ctx.numPorts.toNat).foldl (fun mask i =>
    if hasPort ctx.enabledPortsMask i && i + 1 != ingressPort.toNat then
      mask ||| .ofNat (2 ^ i)
    else mask) egressMask
  ⟨true, egressMask, src⟩

/-- The part of `MiddlewareApplication` that routing reads. -/
structure MiddlewareApplication where
  dest : BmIpAddr
  routingCb : Option BmMiddlewareRoutingCb

/-- `handle_middleware_routing` -/
def handleMiddlewareRouting (applications : List MiddlewareApplication) : L2LinkLocalRoutingCb :=
  fun ingressPort egressPorts src dest =>
    match applications.find? (fun application : MiddlewareApplication =>
        List.ofFn application.dest == List.ofFn dest) with
    | some ⟨_, some routingCb⟩ => routingCb ingressPort egressPorts src
    | _ => ⟨true, egressPorts, src⟩

/-! ## The policy -/

/-- `__builtin_ffs` -/
def ffs (mask : UInt16) : UInt8 :=
  match (List.range 16).find? (hasPort mask) with
  | some i => .ofNat (i + 1)
  | none => 0

/-- `set_ingress_nibble` -/
def setIngressNibble (portsByte ingressPort : UInt8) : UInt8 :=
  (portsByte &&& (0x0F : UInt8)) ||| ((ingressPort &&& (0x0F : UInt8)) <<< (4 : UInt8))

/-- `clear_ingress_nibble` -/
def clearIngressNibble (portsByte : UInt8) : UInt8 := portsByte &&& 0x0F

/-- `clear_egress_nibble` -/
def clearEgressNibble (portsByte : UInt8) : UInt8 := portsByte &&& 0xF0

/-- `BmL2PolicyRxResult` -/
structure BmL2PolicyRxResult where
  shouldSubmit : Bool := true
  egressMask : UInt16 := 0
  ingressPortNum : UInt8 := 0

/-- `bm_l2_policy_rx_apply`, with the frame it leaves. -/
def bmL2PolicyRxApply (frame : List UInt8) (ingressPortMask allPortsMask : UInt16)
    (routingCb : Option L2LinkLocalRoutingCb) : BmL2PolicyRxResult × List UInt8 :=
  if frame.length < frameHdrLen then ({}, frame)
  else if ethernetGetType frame ≠ ethernetTypeIpv6 then ({}, frame)
  else
    let ingressPortNum := ffs ingressPortMask
    if ingressPortNum = 0 then ({}, frame)
    else
      let frame := setPortsByte frame (setIngressNibble (portsByte frame) ingressPortNum)
      if isGlobalMulticast (dstIp frame) then
        ({ egressMask := allPortsMask &&& ~~~ ingressPortMask, ingressPortNum }, frame)
      else
        match routingCb with
        | none => ({ ingressPortNum }, frame)
        | some routingCb =>
          if isLinkLocalNeighborMulticast (dstIp frame) then ({ ingressPortNum }, frame)
          else
            let routed := routingCb ingressPortNum 0 (addrAt frame ipv6SourceAddressOffset)
              (addrAt frame ipv6DestinationAddressOffset)
            (⟨routed.shouldSubmit, routed.egressMask, ingressPortNum⟩,
              setSrcAddr frame routed.src)

/-- `bm_l2_policy_prepare_forwarded_copy` -/
def bmL2PolicyPrepareForwardedCopy (frame : List UInt8) : List UInt8 :=
  if frame.length < frameHdrLen then frame
  else setPortsByte frame (clearEgressNibble (clearIngressNibble (portsByte frame)))

/-! ## Events -/

/-- `bm_l2_tx`: the event put on the queue. -/
def bmL2Tx (ctx : BmL2Ctx) (buf : List UInt8) (portMask : UInt16) : List UInt8 × UInt16 :=
  (buf, portMask &&& ctx.enabledPortsMask)

/-- The byte of the destination that an application writes an egress port into. -/
def egressIdx : Nat := ipv6DestinationAddressOffset + 13

/-- The mask for an egress port that an application has set; all ports without one. -/
def linkOutputMask (ctx : BmL2Ctx) (egressPort : UInt8) : UInt16 :=
  if 0 < egressPort ∧ egressPort ≤ ctx.numPorts then .ofNat (2 ^ (egressPort.toNat - 1))
  else ctx.allPortsMask

/-- `bm_l2_link_output` -/
def bmL2LinkOutput (ctx : BmL2Ctx) (frame : List UInt8) : List UInt8 × UInt16 :=
  bmL2Tx ctx (frame.set egressIdx 0) (linkOutputMask ctx (byte frame egressIdx))

/-- The port mask `bm_l2_rx` gives a frame that came by port `portNum`. -/
def rxPortMask (portNum : UInt8) : UInt16 := .ofNat (2 ^ (portNum.toNat - 1))

/-- What a receive event leads to: a transmit event, and a frame for the IP stack. -/
structure RxOutcome where
  forwarded : Option (List UInt8 × UInt16)
  submitted : Option (List UInt8)

/-- `bm_l2_process_rx_evt`, with room in memory and in the queue for the copy or without. -/
def bmL2ProcessRxEvt (ctx : BmL2Ctx) (routingCb : Option L2LinkLocalRoutingCb) (room : Bool)
    (payload : List UInt8) (portMask : UInt16) : RxOutcome :=
  let (result, payload) := bmL2PolicyRxApply payload portMask ctx.allPortsMask routingCb
  { forwarded :=
      if result.egressMask ≠ 0 ∧ room then
        some (bmL2Tx ctx (bmL2PolicyPrepareForwardedCopy payload) result.egressMask)
      else none
    submitted := if result.shouldSubmit then some payload else none }

/-! ## Port masks -/

section Masks
variable {a b : UInt16} {i : Nat}

theorem hasPort_and : hasPort (a &&& b) i = (hasPort a i && hasPort b i) := by
  simp [hasPort, UInt16.toNat_and, Nat.testBit_and]

theorem hasPort_or : hasPort (a ||| b) i = (hasPort a i || hasPort b i) := by
  simp [hasPort, UInt16.toNat_or, Nat.testBit_or]

theorem hasPort_not (h : i < 16) : hasPort (~~~ a) i = !hasPort a i := by
  have hlt := a.toNat_lt
  have hnot : (~~~ a).toNat = 2 ^ 16 - (a.toNat + 1) := by
    rw [UInt16.toNat_not]
    simp only [UInt16.size]
    omega
  rw [hasPort, hnot, Nat.testBit_two_pow_sub_succ hlt]
  simp [h, hasPort]

/-- A mask has sixteen bits. -/
theorem hasPort_lt (h : hasPort a i = true) : i < 16 := by
  by_contra hge
  have hlt := a.toNat_lt
  rw [hasPort, Nat.testBit_lt_two_pow
    (hlt.trans_le (Nat.pow_le_pow_right (by decide) (by omega)))] at h
  cases h

/-- The mask of one port. -/
theorem hasPort_single {k : Nat} (h : k < 16) : hasPort (.ofNat (2 ^ k)) i = decide (k = i) := by
  have hlt : 2 ^ k < 2 ^ 16 := Nat.pow_lt_pow_right (by omega) h
  rw [hasPort, UInt16.toNat_ofNat', Nat.mod_eq_of_lt hlt, Nat.testBit_two_pow]

/-- The mask of `n` ports. -/
def portsMask (n : Nat) : UInt16 := .ofNat (2 ^ n - 1)

theorem hasPort_portsMask {n : Nat} (h : n ≤ 15) : hasPort (portsMask n) i = decide (i < n) := by
  have hlt : 2 ^ n - 1 < 2 ^ 16 := by
    have hle := Nat.pow_le_pow_right (by omega : 0 < 2) h
    omega
  rw [hasPort, portsMask, UInt16.toNat_ofNat', Nat.mod_eq_of_lt hlt, Nat.testBit_two_pow_sub_one]

theorem hasPort_rxPortMask {port : UInt8} (h : port.toNat ≤ 15) :
    hasPort (rxPortMask port) i = decide (port.toNat - 1 = i) := hasPort_single (by omega)

/-- The ingress port is found in its mask. -/
theorem ffs_rxPortMask {port : UInt8} (hpos : 1 ≤ port.toNat) (h : port.toNat ≤ 15) :
    ffs (rxPortMask port) = port := by
  have hfind : (List.range 16).find? (hasPort (rxPortMask port)) = some (port.toNat - 1) := by
    rw [List.find?_range_eq_some]
    refine ⟨by simp [hasPort_rxPortMask h], by simp; omega, ?_⟩
    intro j hj
    simp only [hasPort_rxPortMask h, Bool.not_eq_true', decide_eq_false_iff_not]
    omega
  rw [ffs, hfind]
  have hport : port.toNat - 1 + 1 = port.toNat := by omega
  simp [hport]

end Masks

/-! ## What the policy does to a frame -/

/-- A callback that does not write the source address. -/
def KeepsSrc (routingCb : L2LinkLocalRoutingCb) : Prop :=
  ∀ ingressPort egressMask src dst, (routingCb ingressPort egressMask src dst).src = src

/-- The middleware hands the source through to its applications. -/
theorem keepsSrc_handleMiddlewareRouting {applications : List MiddlewareApplication}
    (h : ∀ application ∈ applications, ∀ routingCb, application.routingCb = some routingCb →
      ∀ ingressPort egressMask src, (routingCb ingressPort egressMask src).src = src) :
    KeepsSrc (handleMiddlewareRouting applications) := by
  intro ingressPort egressMask src dst
  unfold handleMiddlewareRouting
  split
  next routingCb hfind => exact h _ (List.mem_of_find?_eq_some hfind) _ rfl _ _ _
  next => rfl

theorem keepsSrc_mavlink (ctx : BmL2Ctx) (dest : BmIpAddr) :
    KeepsSrc (handleMiddlewareRouting [⟨dest, some (mavlinkRoutingCb ctx)⟩]) := by
  refine keepsSrc_handleMiddlewareRouting ?_
  intro application hmem routingCb hcb ingressPort egressMask src
  rw [List.mem_singleton] at hmem
  subst hmem
  obtain rfl := Option.some.inj hcb
  rfl

theorem setSrcAddr_addrAt {frame : List UInt8} (h : frameHdrLen ≤ frame.length) :
    setSrcAddr frame (addrAt frame ipv6SourceAddressOffset) = frame := by
  have hsrc : List.ofFn (addrAt frame ipv6SourceAddressOffset) =
      (frame.drop ipv6SourceAddressOffset).take 16 := by
    simp only [frameHdrLen] at h
    apply List.ext_getElem
    · simp only [List.length_ofFn, List.length_take, List.length_drop, ipv6SourceAddressOffset]
      omega
    · intro i h₁ h₂
      rw [List.length_ofFn] at h₁
      have hi : 22 + i < frame.length := by omega
      rw [List.getElem_ofFn, List.getElem_take, List.getElem_drop]
      simp only [addrAt, byte, List.getD_eq_getElem?_getD, ipv6SourceAddressOffset,
        List.getElem?_eq_getElem hi, Option.getD_some]
  have hdrop : frame.drop ipv6DestinationAddressOffset =
      (frame.drop ipv6SourceAddressOffset).drop 16 := by
    simp [ipv6SourceAddressOffset, ipv6DestinationAddressOffset]
  unfold setSrcAddr
  rw [hsrc, hdrop, List.append_assoc, List.take_append_drop, List.take_append_drop]

/-- Both nibbles together are the byte. -/
theorem clear_nibbles (x : UInt8) : clearEgressNibble (clearIngressNibble x) = 0 := by
  unfold clearEgressNibble clearIngressNibble
  rw [UInt8.and_assoc]
  exact UInt8.and_zero

theorem bmL2PolicyPrepareForwardedCopy_eq {frame : List UInt8}
    (h : frameHdrLen ≤ frame.length) : bmL2PolicyPrepareForwardedCopy frame = clearPorts frame := by
  unfold bmL2PolicyPrepareForwardedCopy
  rw [if_neg (Nat.not_lt.mpr h), clear_nibbles]
  rfl

/-- The policy writes nothing but the ports byte, unless the callback writes the source. -/
theorem bmL2PolicyRxApply_frame {frame : List UInt8} (h : frameHdrLen ≤ frame.length)
    (portMask allPortsMask : UInt16) {routingCb : Option L2LinkLocalRoutingCb}
    (hcb : ∀ cb, routingCb = some cb → KeepsSrc cb) :
    ∃ v, (bmL2PolicyRxApply frame portMask allPortsMask routingCb).2 = setPortsByte frame v := by
  have hself : frame = setPortsByte frame (portsByte frame) := (set_byte_self frame _).symm
  unfold bmL2PolicyRxApply
  rw [if_neg (Nat.not_lt.mpr h)]
  split
  · exact ⟨_, hself⟩
  dsimp only
  split
  · exact ⟨_, hself⟩
  split
  · exact ⟨_, rfl⟩
  split
  · exact ⟨_, rfl⟩
  next cb =>
    split
    · exact ⟨_, rfl⟩
    · refine ⟨setIngressNibble (portsByte frame) (ffs portMask), ?_⟩
      rw [hcb cb rfl, setSrcAddr_addrAt (by rw [setPortsByte_length]; exact h)]

/-- What is queued for forwarding is the received frame with its ports cleared. -/
theorem bmL2ProcessRxEvt_forwarded {ctx : BmL2Ctx} {frame : List UInt8}
    (h : frameHdrLen ≤ frame.length) {portMask : UInt16}
    {routingCb : Option L2LinkLocalRoutingCb} {room : Bool}
    (hcb : ∀ cb, routingCb = some cb → KeepsSrc cb) {fwd : List UInt8} {mask : UInt16}
    (hfwd : (bmL2ProcessRxEvt ctx routingCb room frame portMask).forwarded = some (fwd, mask)) :
    fwd = clearPorts frame := by
  obtain ⟨v, hv⟩ := bmL2PolicyRxApply_frame h portMask ctx.allPortsMask hcb
  simp only [bmL2ProcessRxEvt] at hfwd
  split at hfwd
  · have hpair := (Prod.mk.inj (Option.some.inj hfwd)).1
    rw [← hpair, hv, bmL2PolicyPrepareForwardedCopy_eq (by rw [setPortsByte_length]; exact h)]
    exact setPortsByte_setPortsByte frame v 0
  · exact absurd hfwd (by simp)

end BmCore.Network
