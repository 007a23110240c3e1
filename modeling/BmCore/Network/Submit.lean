import BmCore.Network.Bounds
import BmCore.Network.Udp

/-!
# Frames for the software stack

`bm_l2_submit` of `bm_linux.c` takes a frame from the link layer: a BCMP message goes to the BCMP
thread with its buffer, a datagram is copied for the listener of its port, and its buffer is freed.
Three lengths bound each other in a frame, and the size of the buffer bounds them all. As long as
the result is not `BmOK` the buffer belongs to the caller.

The sender of a datagram is known by its address, which only a little-endian host reads.
-/
namespace BmCore.Network
open Library Access

/-- `ip_to_nodeid` -/
def ipToNodeidOn : ByteOrder → BmIpAddr → UInt64
  | .little, ip => ipToNodeid ip
  | .big, _ => 0

/-- The arguments of `udp_cb`. -/
structure UdpCall where
  port : UInt16
  payload : List UInt8
  nodeId : UInt64
  size : Nat
  deriving DecidableEq

/-- What `bm_l2_submit` returns and what it does with the buffer. -/
structure Submitted (Cb : Type) where
  err : BmErr
  /-- The size in the item on the queue of the BCMP thread. -/
  queued : Option Nat := none
  /-- `bm_l2_free` of the buffer. -/
  freed : Bool := false
  call : Option (Cb × UdpCall) := none

/-- The queue of the BCMP thread has room, and there is memory for the copy of a datagram. -/
structure Room where
  queue : Bool
  memory : Bool

/-- `ll_get_item` on `udp_list` -/
def udpListener {Cb : Type} (udpList : List (UInt16 × Cb)) (port : Nat) : Option Cb :=
  (udpList.find? fun entry => entry.1.toNat == port).map (·.2)

section Submit
variable {Cb : Type} (host : ByteOrder) (udpList : List (UInt16 × Cb)) (room : Room)

def udpSrcPortOffset : Nat := 54
def udpDstPortOffset : Nat := 56
def udpPayloadOffset : Nat := frameHdrLen + udpHdrLen

/-- `bm_l2_submit` of a buffer with a frame. -/
def bmL2Submit (frame : List UInt8) (size : Nat) : Submitted Cb :=
  if size < frameHdrLen then { err := .ebadmsg }
  else if ethernetGetType frame ≠ ethernetTypeIpv6 then { err := .ebadmsg }
  else
    let nextHeader := ipv6GetNextHeader frame
    let payloadLength := ipv6GetPayloadLength frame
    if payloadLength + frameHdrLen > size then { err := .ebadmsg }
    else
      let srcAddr := addrAt frame ipv6SourceAddressOffset
      if nextHeader = ipProtoBcmp then
        if payloadLength < bcmpHeaderSize then { err := .ebadmsg }
        else if ¬ room.queue then { err := .eagain }
        else { err := .ok, queued := some payloadLength }
      else if nextHeader = ipProtoUdp then
        if payloadLength < udpHdrLen then { err := .ebadmsg }
        else
          let srcPort := uint8ToUint16 frame udpSrcPortOffset
          let dstPort := uint8ToUint16 frame udpDstPortOffset
          let udpLength := udpGetLength frame
          if udpLength < udpHdrLen ∨ udpLength > payloadLength then { err := .ebadmsg }
          else if ¬ room.memory then { err := .enomem }
          else
            let payload := (List.range (udpLength - udpHdrLen)).map fun i =>
              byte frame (udpPayloadOffset + i)
            -- without a listener the copy is freed as well
            { err := .ok, freed := true, call := (udpListener udpList dstPort).map fun cb =>
              (cb, ⟨.ofNat srcPort, payload, ipToNodeidOn host srcAddr, udpLength - udpHdrLen⟩) }
      else { err := .ebadmsg }

namespace Traced

/-- `uint8_to_uint16` -/
def readUint16 (off : Nat) : Access UInt8 Nat := do
  let hi ← readAt off
  let lo ← readAt (off + 1)
  return hi.toNat * 256 + lo.toNat

/-- `bm_l2_submit`, read by read. -/
def bmL2Submit (size : Nat) : Access UInt8 (Submitted Cb) := do
  if size < frameHdrLen then return { err := .ebadmsg }
  else
    let type ← readUint16 ethernetTypeOffset
    if type ≠ ethernetTypeIpv6 then return { err := .ebadmsg }
    else
      let nextHeader ← readAt ipv6NextHeaderOffset
      let payloadLength ← readUint16 ipv6PayloadLengthOffset
      if payloadLength + frameHdrLen > size then return { err := .ebadmsg }
      else
        let srcAddr ← readAddr ipv6SourceAddressOffset
        if nextHeader = ipProtoBcmp then
          if payloadLength < bcmpHeaderSize then return { err := .ebadmsg }
          else if ¬ room.queue then return { err := .eagain }
          else return { err := .ok, queued := some payloadLength }
        else if nextHeader = ipProtoUdp then
          if payloadLength < udpHdrLen then return { err := .ebadmsg }
          else
            let srcPort ← readUint16 udpSrcPortOffset
            let dstPort ← readUint16 udpDstPortOffset
            let udpLength ← readUint16 udpLengthOffset
            if udpLength < udpHdrLen ∨ udpLength > payloadLength then return { err := .ebadmsg }
            else if ¬ room.memory then return { err := .enomem }
            else
              let payload ← readRange udpPayloadOffset (udpLength - udpHdrLen)
              return {
                err := .ok
                freed := true
                call := (udpListener udpList dstPort).map fun cb =>
                  (cb, ⟨.ofNat srcPort, payload, ipToNodeidOn host srcAddr,
                    udpLength - udpHdrLen⟩) }
        else return { err := .ebadmsg }

@[simp] theorem run_readUint16 (frame : List UInt8) (off : Nat) :
    (readUint16 off).run zeros frame = (uint8ToUint16 frame off, frame) := rfl

theorem run_bmL2Submit (frame : List UInt8) (size : Nat) :
    ((bmL2Submit host udpList room size).run zeros frame).1 =
      Network.bmL2Submit host udpList room frame size := by
  have hbyte : ∀ off, frame.getD off (zeros off) = byte frame off := fun _ => rfl
  unfold bmL2Submit
  simp only [run_ite, run_bind, apply_ite Prod.fst]
  simp only [run_readUint16, run_readAt, run_readAddr, run_readRange, run_pure, hbyte]
  rfl

section Below
variable {beyond : Nat → UInt8} {frame : List UInt8} {size : Nat}

theorem below_readUint16 {off : Nat} (h : off + 2 ≤ size) :
    (readUint16 off).Below beyond frame size :=
  (below_readAt.mpr (by omega)).bind fun _ _ =>
    (below_readAt.mpr (by omega)).bind fun _ _ => below_pure _ _

theorem below_readAddr {off : Nat} (h : off + 16 ≤ size) :
    (readAddr off).Below beyond frame size :=
  (below_readRange h).bind fun _ _ => below_pure _ _

/-- No byte behind `size` is read, whatever the frame says about its lengths. -/
theorem below_bmL2Submit (beyond : Nat → UInt8) (frame : List UInt8) (size : Nat) :
    (bmL2Submit host udpList room size).Below beyond frame size := by
  unfold bmL2Submit
  split
  · exact below_pure _ _
  next hsize =>
  simp only [frameHdrLen, not_lt] at hsize
  refine (below_readUint16 (by simp only [ethernetTypeOffset]; omega)).bind fun type _ => ?_
  split
  · exact below_pure _ _
  refine (below_readAt.mpr (by simp only [ipv6NextHeaderOffset]; omega)).bind
    fun nextHeader _ => ?_
  refine (below_readUint16 (by simp only [ipv6PayloadLengthOffset]; omega)).bind
    fun payloadLength _ => ?_
  split
  · exact below_pure _ _
  next hpayload =>
  refine (below_readAddr (by simp only [ipv6SourceAddressOffset]; omega)).bind fun srcAddr _ => ?_
  split
  · split
    · exact below_pure _ _
    · split <;> exact below_pure _ _
  split
  · split
    · exact below_pure _ _
    next hudp =>
    simp only [frameHdrLen, udpHdrLen] at hpayload hudp
    refine (below_readUint16 (by simp only [udpSrcPortOffset]; omega)).bind fun srcPort _ => ?_
    refine (below_readUint16 (by simp only [udpDstPortOffset]; omega)).bind fun dstPort _ => ?_
    refine (below_readUint16 (by simp only [udpLengthOffset]; omega)).bind fun udpLength _ => ?_
    split
    · exact below_pure _ _
    next hlength =>
    split
    · exact below_pure _ _
    · simp only [udpHdrLen] at hlength
      refine (below_readRange ?_).bind fun _ _ => below_pure _ _
      simp only [udpPayloadOffset, frameHdrLen, udpHdrLen]
      omega
  · exact below_pure _ _

end Below

end Traced

end Submit

/-! ## The sender -/

theorem swap32_toNat {bs : List UInt8} (h : bs.length = 4) :
    (swap32 (.ofNat (leNat bs))).toNat = leNat bs.reverse := by
  have hlt : leNat bs < 2 ^ 32 := by
    have hbound := leNat_lt bs
    rwa [h] at hbound
  have hbytes : leBytes 4 (UInt32.ofNat (leNat bs)).toNat = bs := by
    rw [UInt32.toNat_ofNat_of_lt' hlt, ← h, leBytes_leNat]
  have hswap := swap32_bytes (.ofNat (leNat bs))
  rw [hbytes] at hswap
  rw [← hswap, leNat_leBytes (UInt32.toNat_lt _)]

/-- The number in the last eight bytes, most significant byte first. -/
def senderNodeId (ip : BmIpAddr) : UInt64 := .ofNat (ByteOrder.nat .big ((List.ofFn ip).drop 8))

theorem ipToNodeid_eq (ip : BmIpAddr) : ipToNodeid ip = senderNodeId ip := by
  have hlength : ∀ i < 4, (((List.ofFn ip).drop (4 * i)).take 4).length = 4 := by
    intro i hi
    simp only [List.length_take, List.length_drop, List.length_ofFn]
    omega
  have hsplit : (List.ofFn ip).drop 8 =
      ((List.ofFn ip).drop (4 * 2)).take 4 ++ ((List.ofFn ip).drop (4 * 3)).take 4 := by
    apply List.ext_getElem
    · simp
    · intro i h₁ h₂
      rfl
  have hhigh := swap32_toNat (hlength 2 (by decide))
  have hlow := swap32_toNat (hlength 3 (by decide))
  have hhighlt := leNat_lt (((List.ofFn ip).drop (4 * 2)).take 4).reverse
  have hlowlt := leNat_lt (((List.ofFn ip).drop (4 * 3)).take 4).reverse
  rw [List.length_reverse, hlength _ (by decide)] at hhighlt hlowlt
  have hshift : UInt64.toNat 32 % 64 = 32 := rfl
  rw [← UInt64.toNat_inj, ipToNodeid, senderNodeId, ByteOrder.nat, hsplit, List.reverse_append,
    leNat_append, List.length_reverse, hlength 3 (by decide)]
  simp only [UInt64.toNat_or, UInt64.toNat_shiftLeft, UInt32.toNat_toUInt64, hhigh, hlow,
    UInt64.toNat_ofNat', hshift]
  rw [Nat.mod_eq_of_lt (by rw [Nat.shiftLeft_eq]; omega), ← Nat.shiftLeft_add_eq_or_of_lt hlowlt,
    Nat.mod_eq_of_lt (by omega), Nat.shiftLeft_eq]
  omega

theorem ofFn_nodeidToIp (pre : UInt32) (nodeId : UInt64) : List.ofFn (nodeidToIp pre nodeId) =
    (leBytes 4 pre.toNat).reverse ++ [0, 0, 0, 0] ++ (leBytes 8 nodeId.toNat).reverse := by
  apply List.ext_getElem
  · simp
  · intro i h₁ h₂
    simp only [List.getElem_ofFn, nodeidToIp, List.getD_eq_getElem?_getD,
      List.getElem?_eq_getElem h₂, Option.getD_some]

/-- The address of a node tells its id. -/
theorem senderNodeId_nodeidToIp (pre : UInt32) (nodeId : UInt64) :
    senderNodeId (nodeidToIp pre nodeId) = nodeId := by
  have hlength : ((leBytes 4 pre.toNat).reverse ++ [0, 0, 0, 0]).length = 8 := by simp
  rw [senderNodeId, ofFn_nodeidToIp, List.drop_left' hlength, ByteOrder.nat, List.reverse_reverse,
    leNat_leBytes nodeId.toNat_lt, UInt64.ofNat_toNat]

/-- What a host makes of the address of a sender. -/
theorem ipToNodeidOn_eq_iff (host : ByteOrder) (ip : BmIpAddr) :
    ipToNodeidOn host ip = senderNodeId ip ↔ host = .little ∨ senderNodeId ip = 0 := by
  cases host with
  | little => simp [ipToNodeidOn, ipToNodeid_eq]
  | big => simp [ipToNodeidOn, eq_comm]

/-! ## What is accepted -/

/-- The lengths of a frame fit into each other and into its buffer. -/
structure Consistent (frame : List UInt8) (size : Nat) : Prop where
  type : ethernetGetType frame = ethernetTypeIpv6
  fits : frameHdrLen + ipv6GetPayloadLength frame ≤ size
  upper : (ipv6GetNextHeader frame = ipProtoBcmp ∧ bcmpHeaderSize ≤ ipv6GetPayloadLength frame) ∨
    (ipv6GetNextHeader frame = ipProtoUdp ∧ udpHdrLen ≤ udpGetLength frame ∧
      udpGetLength frame ≤ ipv6GetPayloadLength frame)

section Accepted
variable {Cb : Type} {host : ByteOrder} {udpList : List (UInt16 × Cb)} {room : Room}
  {frame : List UInt8} {size : Nat}

/-- A frame that is not consistent is refused. -/
theorem bmL2Submit_inconsistent (h : ¬ Consistent frame size) :
    bmL2Submit host udpList room frame size = { err := .ebadmsg } := by
  unfold bmL2Submit
  by_cases hsize : size < frameHdrLen
  · rw [if_pos hsize]
  rw [if_neg hsize]
  by_cases htype : ethernetGetType frame = ethernetTypeIpv6
  case neg => rw [if_pos htype]
  rw [if_neg (not_not_intro htype)]
  dsimp only
  by_cases hfits : ipv6GetPayloadLength frame + frameHdrLen > size
  · rw [if_pos hfits]
  rw [if_neg hfits]
  have hle : frameHdrLen + ipv6GetPayloadLength frame ≤ size := by omega
  by_cases hbcmp : ipv6GetNextHeader frame = ipProtoBcmp
  · rw [if_pos hbcmp, if_pos]
    by_contra hlen
    exact h ⟨htype, hle, .inl ⟨hbcmp, not_lt.mp hlen⟩⟩
  rw [if_neg hbcmp]
  by_cases hudp : ipv6GetNextHeader frame = ipProtoUdp
  case neg => rw [if_neg hudp]
  rw [if_pos hudp]
  by_cases hlen : ipv6GetPayloadLength frame < udpHdrLen
  · rw [if_pos hlen]
  rw [if_neg hlen, if_pos]
  by_contra hlengths
  rw [not_or, not_lt, gt_iff_lt, not_lt] at hlengths
  exact h ⟨htype, hle, .inr ⟨hudp, hlengths⟩⟩

/-- A consistent message goes to the BCMP thread. -/
theorem bmL2Submit_bcmp (h : Consistent frame size)
    (hnext : ipv6GetNextHeader frame = ipProtoBcmp) :
    bmL2Submit host udpList room frame size =
      if room.queue then { err := .ok, queued := some (ipv6GetPayloadLength frame) }
      else { err := .eagain } := by
  have hlen : bcmpHeaderSize ≤ ipv6GetPayloadLength frame := by
    rcases h.upper with hbcmp | hudp
    · exact hbcmp.2
    · exact absurd (hnext.symm.trans hudp.1) (by decide)
  have hfits := h.fits
  unfold bmL2Submit
  rw [if_neg (by omega), if_neg (not_not_intro h.type)]
  dsimp only
  rw [if_neg (by omega), if_pos hnext, if_neg (by omega)]
  cases room.queue <;> rfl

/-- A consistent datagram is copied for its listener. -/
theorem bmL2Submit_udp (h : Consistent frame size) (hnext : ipv6GetNextHeader frame = ipProtoUdp) :
    bmL2Submit host udpList room frame size =
      if room.memory then
        { err := .ok, freed := true,
          call := (udpListener udpList (uint8ToUint16 frame udpDstPortOffset)).map fun cb =>
            (cb, ⟨.ofNat (uint8ToUint16 frame udpSrcPortOffset),
              (List.range (udpGetLength frame - udpHdrLen)).map fun i =>
                byte frame (udpPayloadOffset + i),
              ipToNodeidOn host (addrAt frame ipv6SourceAddressOffset),
              udpGetLength frame - udpHdrLen⟩) }
      else { err := .enomem } := by
  have hlens : udpHdrLen ≤ udpGetLength frame ∧
      udpGetLength frame ≤ ipv6GetPayloadLength frame := by
    rcases h.upper with hbcmp | hudp
    · exact absurd (hnext.symm.trans hbcmp.1) (by decide)
    · exact hudp.2
  have hfits := h.fits
  have hne : ipv6GetNextHeader frame ≠ ipProtoBcmp := by
    rw [hnext]
    decide
  unfold bmL2Submit
  rw [if_neg (by omega), if_neg (not_not_intro h.type)]
  dsimp only
  rw [if_neg (by omega), if_neg hne, if_pos hnext, if_neg (by omega), if_neg (by omega)]
  cases room.memory <;> rfl

end Accepted

/-! ## Round trip -/

/-- A frame with a datagram, and anything behind it. -/
structure CarriesDatagram (srcPort dstPort : UInt16) (src : BmIpAddr)
    (payload frame : List UInt8) : Prop where
  consistent : Consistent frame frame.length
  next : ipv6GetNextHeader frame = ipProtoUdp
  udpLength : udpGetLength frame = udpHdrLen + payload.length
  srcPort : uint8ToUint16 frame udpSrcPortOffset = srcPort.toNat
  dstPort : uint8ToUint16 frame udpDstPortOffset = dstPort.toNat
  src : addrAt frame ipv6SourceAddressOffset = src
  payload : ((List.range payload.length).map fun i => byte frame (udpPayloadOffset + i)) = payload

theorem CarriesDatagram.bmL2Submit {Cb : Type} {srcPort dstPort : UInt16} {src : BmIpAddr}
    {payload frame : List UInt8} (h : CarriesDatagram srcPort dstPort src payload frame)
    (host : ByteOrder) (udpList : List (UInt16 × Cb)) (room : Room) :
    bmL2Submit host udpList room frame frame.length =
      if room.memory then
        { err := .ok, freed := true,
          call := (udpListener udpList dstPort.toNat).map fun cb =>
            (cb, ⟨srcPort, payload, ipToNodeidOn host src, payload.length⟩) }
      else { err := .enomem } := by
  rw [bmL2Submit_udp h.consistent h.next, h.udpLength, h.srcPort, h.dstPort, h.src,
    Nat.add_sub_cancel_left, h.payload, UInt16.ofNat_toNat]

theorem addrAt_of_srcIp {frame : List UInt8} {src : BmIpAddr} (h : srcIp frame = List.ofFn src) :
    addrAt frame ipv6SourceAddressOffset = src := by
  funext i
  have hbyte := byte_srcIp frame i.isLt
  rw [h, byte, List.getD_eq_getElem _ _ (by simp), List.getElem_ofFn] at hbyte
  exact hbyte.symm

/-- What the stack sends carries its payload. -/
theorem carriesDatagram_udpFrame (sender : ByteOrder) (ctx : LinuxCtx) (srcPort dstPort : UInt16)
    (dst : BmIpAddr) (payload trailing : List UInt8)
    (h : udpHdrLen + payload.length < 2 ^ 16) :
    CarriesDatagram srcPort dstPort ctx.llAddr payload
      (udpFrame sender ctx srcPort dstPort dst payload ++ trailing) := by
  obtain ⟨cksum, -, hframe⟩ := udpFrame_eq sender ctx srcPort dstPort dst payload
  have heq : udpFrame sender ctx srcPort dstPort dst payload ++ trailing =
      udpFrameHdr ctx dst (udpHdrLen + payload.length) ++
      (udpHdr srcPort dstPort (udpHdrLen + payload.length) cksum ++ (payload ++ trailing)) := by
    simp only [hframe, List.append_assoc]
  obtain ⟨htype, hlen, hnext⟩ := fields_udpFrame ctx dst (udpHdrLen + payload.length)
    (udpHdr srcPort dstPort (udpHdrLen + payload.length) cksum ++ (payload ++ trailing)) h
  have hudp := (word_udpFrame ctx dst (udpHdrLen + payload.length)
    (udpHdr srcPort dstPort (udpHdrLen + payload.length) cksum ++ (payload ++ trailing)) 4).trans
      (split_uint16 h)
  rw [heq]
  refine ⟨⟨htype, ?_, .inr ⟨hnext, ?_, ?_⟩⟩, hnext, hudp, ?_, ?_, ?_, ?_⟩
  · rw [hlen, List.length_append, udpFrameHdr_length]
    simp only [udpHdr, udpHdrLen, List.length_append, List.length_cons, List.length_nil]
    omega
  · rw [show udpGetLength _ = _ from hudp]
    omega
  · rw [show udpGetLength _ = _ from hudp, hlen]
  · exact (word_udpFrame ctx dst _ _ 0).trans (split_uint16 srcPort.toNat_lt)
  · exact (word_udpFrame ctx dst _ _ 2).trans (split_uint16 dstPort.toNat_lt)
  · exact addrAt_of_srcIp (srcIp_udpFrame ctx dst _ _)
  · apply List.ext_getElem
    · simp
    · intro i hi₁ hi₂
      have hdrop : (udpHdr srcPort dstPort (udpHdrLen + payload.length) cksum ++
          (payload ++ trailing)).drop udpHdrLen = payload ++ trailing := rfl
      rw [List.getElem_map, List.getElem_range, udpPayloadOffset, Nat.add_assoc, byte_udpFrame,
        byte, List.getD_eq_getElem?_getD, ← List.getElem?_drop, hdrop,
        List.getElem?_append_left hi₂, List.getElem?_eq_getElem hi₂, Option.getD_some]

/-- The laws of `bm_l2_submit` for a frame, whatever its bytes are. -/
structure SubmitLaw {Cb : Type} (host : ByteOrder) (udpList : List (UInt16 × Cb)) (room : Room)
    (frame : List UInt8) (size : Nat) : Prop where
  below : ∀ beyond, (Traced.bmL2Submit host udpList room size).Below beyond frame size
  read : ((Traced.bmL2Submit host udpList room size).run Traced.zeros frame).1 =
    bmL2Submit host udpList room frame size
  consistent : (bmL2Submit host udpList room frame size).err = .ok → Consistent frame size
  kept : (bmL2Submit host udpList room frame size).err ≠ .ok →
    (bmL2Submit host udpList room frame size).freed = false ∧
      (bmL2Submit host udpList room frame size).queued = none
  /-- The buffer is freed or queued, and not both. -/
  taken : (bmL2Submit host udpList room frame size).err = .ok →
    (bmL2Submit host udpList room frame size).freed !=
      (bmL2Submit host udpList room frame size).queued.isSome

theorem submitLaw {Cb : Type} (host : ByteOrder) (udpList : List (UInt16 × Cb)) (room : Room)
    (frame : List UInt8) (size : Nat) : SubmitLaw host udpList room frame size := by
  have hcases : (¬ Consistent frame size ∧
        bmL2Submit host udpList room frame size = { err := .ebadmsg }) ∨
      (Consistent frame size ∧ (bmL2Submit host udpList room frame size =
        if room.queue then { err := .ok, queued := some (ipv6GetPayloadLength frame) }
        else { err := .eagain })) ∨
      (Consistent frame size ∧ ∃ call, bmL2Submit host udpList room frame size =
        if room.memory then { err := .ok, freed := true, call } else { err := .enomem }) := by
    by_cases h : Consistent frame size
    case neg => exact .inl ⟨h, bmL2Submit_inconsistent h⟩
    rcases h.upper with hbcmp | hudp
    · exact .inr (.inl ⟨h, bmL2Submit_bcmp h hbcmp.1⟩)
    · exact .inr (.inr ⟨h, _, bmL2Submit_udp h hudp.1⟩)
  refine ⟨fun beyond => Traced.below_bmL2Submit host udpList room beyond frame size,
    Traced.run_bmL2Submit host udpList room frame size, ?_, ?_, ?_⟩
  all_goals
    rcases hcases with ⟨-, heq⟩ | ⟨hconsistent, heq⟩ | ⟨hconsistent, call, heq⟩
  · simp [heq]
  · exact fun _ => hconsistent
  · exact fun _ => hconsistent
  · simp [heq]
  · cases hqueue : room.queue <;> simp [heq, hqueue]
  · cases hmemory : room.memory <;> simp [heq, hmemory]
  · simp [heq]
  · cases hqueue : room.queue <;> simp [heq, hqueue]
  · cases hmemory : room.memory <;> simp [heq, hmemory]

/-- Reads stay below the size, what is accepted is consistent, and what is not stays with the
caller. A datagram of the stack, with anything behind it, comes back to the listener of its port as
it was sent, if there is memory for it; only a big-endian host takes it for one of node 0. -/
theorem l2_submit_round_trip_iff {Cb : Type} (host : ByteOrder) (udpList : List (UInt16 × Cb))
    (room : Room) :
    (∀ frame size, SubmitLaw host udpList room frame size) ∧
    ∀ (sender : ByteOrder) (nodeId : UInt64) (srcPort port : UInt16) (dst : BmIpAddr)
      (buf trailing : List UInt8) (size : Nat) (cb : Cb), size ≤ buf.length →
      udpHdrLen + size ≤ 65535 → udpListener udpList port.toNat = some cb →
      ∃ frame, bmUdpTxPerform sender (bmIpInit nodeId) true (some srcPort) (some buf) size
          (some dst) port = .ok frame ∧
        let result := bmL2Submit host udpList room (frame ++ trailing) (frame ++ trailing).length
        (result.err = .ok ∧
            result.call = some (cb, ⟨srcPort, buf.take size, nodeId, size⟩) ↔
          room.memory = true ∧ (host = .little ∨ nodeId = 0)) := by
  refine ⟨fun frame size => submitLaw host udpList room frame size, ?_⟩
  intro sender nodeId srcPort port dst buf trailing size cb hbuf hsize hcb
  have hlength : (buf.take size).length = size := List.length_take_of_le hbuf
  have hcarries := carriesDatagram_udpFrame sender (bmIpInit nodeId) srcPort port dst
    (buf.take size) trailing (by omega)
  have hnode := ipToNodeidOn_eq_iff host (bmIpInit nodeId).llAddr
  rw [bmIpInit, senderNodeId_nodeidToIp] at hnode
  refine ⟨_, rfl, ?_⟩
  dsimp only
  rw [hcarries.bmL2Submit, hcb, ← hnode]
  cases room.memory <;> simp [hlength, bmIpInit]

/-- A node of either byte order answers to port 4321, and a neighbor sends two bytes. -/
theorem l2_submit_round_trip_little : ∃ frame,
    bmUdpTxPerform .big (bmIpInit 7) true (some 9) (some [1, 2]) 2 (some multicastGlobalAddr) 4321 =
        .ok frame ∧
      (bmL2Submit .little [(4321, ())] ⟨true, true⟩ (frame ++ [0xAA])
        (frame ++ [0xAA]).length).err = .ok := by
  obtain ⟨frame, hframe, hround⟩ := (l2_submit_round_trip_iff .little [(4321, ())]
    ⟨true, true⟩).2 .big 7 9 4321 multicastGlobalAddr [1, 2] [0xAA] 2 () (by decide) (by decide) rfl
  exact ⟨frame, hframe, (hround.mpr ⟨rfl, .inl rfl⟩).1⟩

/-- A big-endian host takes the datagram of node 7 for one of node 0. -/
theorem l2_submit_loses_sender :
    let frame := udpFrame .big (bmIpInit 7) 9 4321 multicastGlobalAddr [1, 2]
    (bmL2Submit .big [(4321, ())] ⟨true, true⟩ frame frame.length).call =
        some ((), ⟨9, [1, 2], 0, 2⟩) ∧
      (bmL2Submit .big [(4321, ())] ⟨true, true⟩ frame frame.length).call ≠
        some ((), ⟨9, [1, 2], 7, 2⟩) := by
  decide +kernel

end BmCore.Network
