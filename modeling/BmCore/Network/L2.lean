import BmCore.Network.Checksum

/-!
# The transmit side of the link layer

`l2.c`: the egress port is stamped into the source address of a link-local multicast frame, with
an incremental update of the checksum, once for every port the frame leaves by. The update adds
the port to the complemented checksum and drops the carry, where a ones' complement sum would add
it back at the low end.
-/
namespace BmCore.Network
open Library

/-- `add_egress_port` -/
def addEgressPort (frame : List UInt8) (port : UInt8) : List UInt8 :=
  setPortsByte frame (portsByte frame ||| port)

/-- `clear_ports` -/
def clearPorts (frame : List UInt8) : List UInt8 := setPortsByte frame 0

/-- Change the complement of the checksum field of a UDP or BCMP frame. The UDP branch works on the
first byte of the field, the BCMP branch on the field as the host reads it. -/
def updateChecksum (udp : UInt8 → UInt8) (bcmp : UInt16 → UInt16) (frame : List UInt8) :
    List UInt8 :=
  if ethernetGetType frame = ethernetTypeIpv6 then
    if ipv6GetNextHeader frame = ipProtoUdp then
      frame.set udpChecksumOffset (udp (byte frame udpChecksumOffset ^^^ 0xFF) ^^^ 0xFF)
    else if ipv6GetNextHeader frame = ipProtoBcmp then
      setUint16 frame bcmpChecksumOffset
        (bcmp (getUint16 frame bcmpChecksumOffset ^^^ 0xFFFF) ^^^ 0xFFFF)
    else frame
  else frame

/-- `network_revert_checksum` -/
def networkRevertChecksum (frame : List UInt8) (portNum : UInt8) : List UInt8 :=
  updateChecksum (· - portNum) (· - portNum.toUInt16) frame

/-- `network_add_egress_port` -/
def networkAddEgressPort (frame : List UInt8) (portNum : UInt8) : List UInt8 :=
  updateChecksum (· + portNum) (· + portNum.toUInt16) (addEgressPort frame portNum)

/-- The part of `BmL2Ctx` the data path reads. -/
structure BmL2Ctx where
  numPorts : UInt8
  allPortsMask : UInt16
  enabledPortsMask : UInt16

/-- A frame handed to the network device, with its port; 0 is every port. -/
abbrev Sent := UInt8 × List UInt8

/-- Bit `portIdx` of a port mask. -/
def hasPort (portMask : UInt16) (portIdx : Nat) : Bool := portMask.toNat.testBit portIdx

/-- `send_global_multicast_packet` -/
def sendGlobalMulticastPacket (ctx : BmL2Ctx) (payload : List UInt8) (portMask : UInt16) :
    List Sent :=
  if portMask = ctx.allPortsMask then [(0, payload)]
  else ((List.range ctx.numPorts.toNat).filter (hasPort portMask)).map fun portIdx =>
    (.ofNat (portIdx + 1), payload)

/-- One round of the loop over the ports: what has been sent, and the payload. -/
def txPort (portMask : UInt16) (s : List Sent × List UInt8) (portIdx : Nat) :
    List Sent × List UInt8 :=
  if hasPort portMask portIdx then
    let portNum : UInt8 := .ofNat (portIdx + 1)
    let payload := networkAddEgressPort s.2 portNum
    (s.1 ++ [(portNum, payload)], networkRevertChecksum (clearPorts payload) portNum)
  else s

/-- `bm_l2_process_tx_evt` -/
def bmL2ProcessTxEvt (ctx : BmL2Ctx) (payload : List UInt8) (portMask : UInt16) : List Sent :=
  if isGlobalMulticast (dstIp payload) then sendGlobalMulticastPacket ctx payload portMask
  else if isLinkLocalMulticast (dstIp payload) then
    ((List.range ctx.numPorts.toNat).foldl (txPort portMask) ([], payload)).1
  else []

/-! ## The fields of a stamped frame -/

theorem setPortsByte_length (frame : List UInt8) (v : UInt8) :
    (setPortsByte frame v).length = frame.length := by
  simp [setPortsByte]

section Fields
variable (frame : List UInt8) (v : UInt8)

@[simp] theorem ethernetGetType_setPortsByte :
    ethernetGetType (setPortsByte frame v) = ethernetGetType frame :=
  uint8ToUint16_set (by decide) (by decide)

@[simp] theorem ipv6GetNextHeader_setPortsByte :
    ipv6GetNextHeader (setPortsByte frame v) = ipv6GetNextHeader frame :=
  byte_set_ne (by decide)

@[simp] theorem ipv6GetPayloadLength_setPortsByte :
    ipv6GetPayloadLength (setPortsByte frame v) = ipv6GetPayloadLength frame :=
  uint8ToUint16_set (by decide) (by decide)

@[simp] theorem udpGetLength_setPortsByte :
    udpGetLength (setPortsByte frame v) = udpGetLength frame :=
  uint8ToUint16_set (by decide) (by decide)

@[simp] theorem dstIp_setPortsByte : dstIp (setPortsByte frame v) = dstIp frame :=
  dstIp_set_of_lt (by decide)

@[simp] theorem setPortsByte_setPortsByte (u : UInt8) :
    setPortsByte (setPortsByte frame v) u = setPortsByte frame u := by
  simp [setPortsByte]

theorem portsByte_setPortsByte (h : frameHdrLen ≤ frame.length) :
    portsByte (setPortsByte frame v) = v :=
  byte_set_self (by
    simp only [frameHdrLen, ipv6IngressEgressPortsOffset, ipv6SourceAddressOffset] at h ⊢
    omega)

end Fields

/-- Setting the ports byte commutes with setting a checksum. -/
theorem setPortsByte_set_comm (frame : List UInt8) (v c : UInt8) :
    setPortsByte (frame.set udpChecksumOffset c) v =
      (setPortsByte frame v).set udpChecksumOffset c :=
  List.set_comm _ _ (by decide)

theorem setPortsByte_setUint16_comm (frame : List UInt8) (v : UInt8) (c : UInt16) :
    setPortsByte (setUint16 frame bcmpChecksumOffset c) v =
      setUint16 (setPortsByte frame v) bcmpChecksumOffset c := by
  unfold setPortsByte setUint16
  rw [List.set_comm _ _ (by decide), List.set_comm (i := bcmpChecksumOffset) _ _ (by decide)]

theorem getUint16_setPortsByte (frame : List UInt8) (v : UInt8) :
    getUint16 (setPortsByte frame v) bcmpChecksumOffset = getUint16 frame bcmpChecksumOffset := by
  unfold getUint16 setPortsByte
  rw [byte_set_ne (by decide), byte_set_ne (by decide)]

/-- A frame is seen as IPv6 with the given next header. -/
structure Carries (nextHeader : UInt8) (frame : List UInt8) : Prop where
  type : ethernetGetType frame = ethernetTypeIpv6
  next : ipv6GetNextHeader frame = nextHeader

namespace Carries
variable {nextHeader : UInt8} {frame : List UInt8}

theorem setPortsByte (h : Carries nextHeader frame) (v : UInt8) :
    Carries nextHeader (setPortsByte frame v) :=
  ⟨by simpa using h.type, by simpa using h.next⟩

theorem set (h : Carries nextHeader frame) {i : Nat} (hi : frameHdrLen ≤ i) (v : UInt8) :
    Carries nextHeader (frame.set i v) := by
  simp only [frameHdrLen] at hi
  refine ⟨?_, ?_⟩
  · rw [← h.type]
    refine uint8ToUint16_set ?_ ?_ <;> simp only [ethernetTypeOffset] <;> omega
  · rw [← h.next]
    refine byte_set_ne ?_
    simp only [ipv6NextHeaderOffset]
    omega

theorem setUint16 (h : Carries nextHeader frame) {i : Nat} (hi : frameHdrLen ≤ i) (v : UInt16) :
    Carries nextHeader (setUint16 frame i v) :=
  (h.set hi _).set (by omega) _

theorem updateChecksum_udp (h : Carries ipProtoUdp frame) (udp : UInt8 → UInt8)
    (bcmp : UInt16 → UInt16) : updateChecksum udp bcmp frame =
      frame.set udpChecksumOffset (udp (byte frame udpChecksumOffset ^^^ 0xFF) ^^^ 0xFF) := by
  simp only [updateChecksum, h.type, h.next, if_true]

theorem updateChecksum_bcmp (h : Carries ipProtoBcmp frame) (udp : UInt8 → UInt8)
    (bcmp : UInt16 → UInt16) : updateChecksum udp bcmp frame =
      Network.setUint16 frame bcmpChecksumOffset
        (bcmp (getUint16 frame bcmpChecksumOffset ^^^ 0xFFFF) ^^^ 0xFFFF) := by
  have hne : ipProtoBcmp ≠ ipProtoUdp := by decide
  simp only [updateChecksum, h.type, h.next, if_true, if_neg hne]

end Carries

namespace LinkLocalFrame
variable {frame : List UInt8}

theorem carries (h : LinkLocalFrame frame) :
    Carries ipProtoUdp frame ∨ Carries ipProtoBcmp frame := by
  rcases h.upper with ⟨hudp, -⟩ | ⟨hbcmp, -⟩
  · exact .inl ⟨h.ethertype, hudp⟩
  · exact .inr ⟨h.ethertype, hbcmp⟩

theorem upper_udp (h : LinkLocalFrame frame) (hudp : ipv6GetNextHeader frame = ipProtoUdp) :
    udpHdrLen ≤ udpGetLength frame ∧ udpGetLength frame ≤ ipv6GetPayloadLength frame := by
  rcases h.upper with ⟨-, hlen⟩ | ⟨hbcmp, -⟩
  · exact hlen
  · exact absurd (hudp.symm.trans hbcmp) (by decide)

theorem upper_bcmp (h : LinkLocalFrame frame) (hbcmp : ipv6GetNextHeader frame = ipProtoBcmp) :
    bcmpHeaderSize ≤ ipv6GetPayloadLength frame := by
  rcases h.upper with ⟨hudp, -⟩ | ⟨-, hlen⟩
  · exact absurd (hudp.symm.trans hbcmp) (by decide)
  · exact hlen

end LinkLocalFrame

/-- Stamping a frame whose ports are cleared. -/
theorem networkAddEgressPort_clearPorts {frame : List UInt8} (q : UInt8)
    (hlen : frameHdrLen ≤ frame.length) :
    networkAddEgressPort (clearPorts frame) q =
      updateChecksum (· + q) (· + q.toUInt16) (setPortsByte frame q) := by
  unfold networkAddEgressPort addEgressPort clearPorts
  rw [portsByte_setPortsByte _ _ hlen, setPortsByte_setPortsByte, UInt8.zero_or]

/-! ## The incremental update -/

theorem udpUpdate_toNat (c q : UInt8) : (((c ^^^ 0xFF) + q) ^^^ 0xFF).toNat =
    (c.toNat + 256 - q.toNat) % 256 := by
  have hnot : ∀ x : UInt8, (x ^^^ 0xFF).toNat = 255 - x.toNat := by
    intro x
    have : x ^^^ 0xFF = ~~~ x := UInt8.xor_neg_one
    rw [this, UInt8.toNat_not]
    rfl
  have hc := c.toNat_lt
  have hq := q.toNat_lt
  rw [hnot, UInt8.toNat_add, hnot]
  omega

theorem bcmpUpdate_toNat (c q : UInt16) : (((c ^^^ 0xFFFF) + q) ^^^ 0xFFFF).toNat =
    (c.toNat + 65536 - q.toNat) % 65536 := by
  have hnot : ∀ x : UInt16, (x ^^^ 0xFFFF).toNat = 65535 - x.toNat := by
    intro x
    have : x ^^^ 0xFFFF = ~~~ x := UInt16.xor_neg_one
    rw [this, UInt16.toNat_not]
    rfl
  have hc := c.toNat_lt
  have hq := q.toNat_lt
  rw [hnot, UInt16.toNat_add, hnot]
  omega

/-- The frame keeps its checksum when its ports are cleared and it leaves by port `q`: no carry is
lost, or, on a BCMP frame that came from port 1, the lost carry makes up for the port that was
cleared. -/
def keepsChecksum (frame : List UInt8) (q : UInt8) : Bool :=
  if ipv6GetNextHeader frame = ipProtoUdp then
    portsByte frame == 0 && q ≤ byte frame udpChecksumOffset
  else
    let checksum := (getUint16 frame bcmpChecksumOffset).toNat
    (portsByte frame == 0 && q.toNat ≤ checksum) ||
      (portsByte frame == 1 && checksum + 1 < q.toNat)

/-- A first checksum byte `b` of a sum that verifies becomes `c`: only without a lost carry, and
with no port cleared, does the sum still verify. -/
theorem udp_sum_iff {t u v e q b c : Nat} (ht : t % 65535 = 0) (hu : u + 256 * e = t + 256 * q)
    (hv : v + 256 * b = u + 256 * c) (hc : c = (b + 256 - q) % 256) (he : e < 16) (hq : q < 16)
    (hb : b < 256) : v % 65535 = 0 ↔ e = 0 ∧ q ≤ b := by
  by_cases hle : q ≤ b
  · have hc' : c = b - q := by omega
    have hsum : v + 256 * e = t := by omega
    omega
  · have hc' : c = b + 256 - q := by omega
    have hsum : v + 256 * e = t + 65536 := by omega
    omega

/-- The same for a BCMP checksum with bytes `b₀` and `b₁` that becomes one with bytes `c₀` and
`c₁`, in the order of the host. -/
theorem bcmp_sum_iff {t u v e q b₀ b₁ c₀ c₁ : Nat} (ht : t % 65535 = 0)
    (hne : b₀ + 256 * b₁ ≠ 65535) (hu : u + 256 * e = t + 256 * q)
    (hv : v + (256 * b₀ + b₁) = u + (256 * c₀ + c₁))
    (hc : c₀ + 256 * c₁ = (b₀ + 256 * b₁ + 65536 - q) % 65536) (he : e < 16) (hq : q < 16)
    (hb₀ : b₀ < 256) (hb₁ : b₁ < 256) (hc₀ : c₀ < 256) (hc₁ : c₁ < 256) :
    (v % 65535 = 0 ∧ c₀ + 256 * c₁ ≠ 65535) ↔
      (e = 0 ∧ q ≤ b₀ + 256 * b₁) ∨ (e = 1 ∧ b₀ + 256 * b₁ + 1 < q) := by
  -- swapping the bytes multiplies by 256
  by_cases hle : q ≤ b₀ + 256 * b₁
  · have hc' : c₀ + 256 * c₁ + q = b₀ + 256 * b₁ := by omega
    have hsum : v + 256 * e + 65535 * c₁ = t + 65535 * b₁ := by omega
    omega
  · have hc' : c₀ + 256 * c₁ + q = b₀ + 256 * b₁ + 65536 := by omega
    have hsum : v + 256 * e + 65535 * c₁ = t + 65535 * (b₁ + 256) + 256 := by omega
    omega

section Stamp
variable {frame : List UInt8}

/-- The sum over a frame with another ports byte. -/
theorem totalSum_setPortsByte (hlen : frameHdrLen ≤ frame.length) (nextHeader : UInt8) (len : Nat)
    (q : UInt8) : totalSum (setPortsByte frame q) nextHeader len + 256 * (portsByte frame).toNat =
      totalSum frame nextHeader len + 256 * q.toNat :=
  totalSum_set_src (k := 2) hlen (by decide) q

theorem Carries.verifies_udp (h : Carries ipProtoUdp frame) : verifies frame = true ↔
    totalSum frame ipProtoUdp (udpGetLength frame) % 65535 = 0 := by
  rw [verifies, if_pos h.next, udpSumVerifies_iff]

/-- The BCMP check is about the sum over the cleaned message. -/
theorem Carries.verifies_bcmp (h : Carries ipProtoBcmp frame) {len : Nat}
    (hlen : ipv6GetPayloadLength frame = len) (hmin : bcmpHeaderSize ≤ len)
    (hfits : frameHdrLen + len ≤ frame.length) : verifies frame = true ↔
      totalSum (received frame) ipProtoBcmp len % 65535 = 0 ∧
        (getUint16 (received frame) bcmpChecksumOffset).toNat ≠ 65535 := by
  have hudp : ipv6GetNextHeader frame ≠ ipProtoUdp := by
    rw [h.next]
    decide
  have hsize : len - bcmpHeaderSize + bcmpHeaderSize = len := Nat.sub_add_cancel hmin
  have hbound : len < 2 ^ 16 := by
    rw [← hlen]
    exact uint8ToUint16_lt frame _
  rw [verifies, if_neg hudp, if_pos h.next, hlen,
    processReceivedMessage_isSome_iff (by rw [hsize]; exact hbound) (by rw [hsize]; exact hfits),
    hsize]

theorem stamp_verifies_udp (h : LinkLocalFrame frame) (hudp : Carries ipProtoUdp frame)
    (hv : verifies frame = true) {q : UInt8} (hq : q.toNat < 16) :
    verifies (updateChecksum (· + q) (· + q.toUInt16) (setPortsByte frame q)) = true ↔
      portsByte frame = 0 ∧ q.toNat ≤ (byte frame udpChecksumOffset).toNat := by
  obtain ⟨hmin, hmax⟩ := h.upper_udp hudp.next
  have hfits := h.fits
  simp only [udpHdrLen] at hmin
  have hlen : frameHdrLen ≤ frame.length := le_trans (Nat.le_add_right _ _) hfits
  have hbyte : byte (setPortsByte frame q) udpChecksumOffset = byte frame udpChecksumOffset :=
    byte_set_ne (by decide)
  have hc := udpUpdate_toNat (byte frame udpChecksumOffset) q
  rw [(hudp.setPortsByte q).updateChecksum_udp, hbyte]
  -- the stamped frame differs from the unstamped one in the ports and the first checksum byte
  generalize ((byte frame udpChecksumOffset ^^^ 0xFF) + q) ^^^ 0xFF = c at hc
  have hsame : udpGetLength ((setPortsByte frame q).set udpChecksumOffset c) =
      udpGetLength frame := by
    rw [← udpGetLength_setPortsByte frame q]
    exact uint8ToUint16_set (by decide) (by decide)
  have hports := totalSum_setPortsByte hlen ipProtoUdp (udpGetLength frame) q
  have hsum := totalSum_set_upper ipProtoUdp (by omega : 6 < udpGetLength frame)
    (by rw [setPortsByte_length]; omega :
      frameHdrLen + udpGetLength frame ≤ (setPortsByte frame q).length) c
  have hweight : byteWeight 6 = 256 := rfl
  have hoff : frameHdrLen + 6 = udpChecksumOffset := rfl
  rw [hweight, hoff, hbyte] at hsum
  rw [((hudp.setPortsByte q).set (by decide) c).verifies_udp, hsame, ← UInt8.toNat_inj]
  exact udp_sum_iff (hudp.verifies_udp.mp hv) hports hsum hc h.ingress hq
    (byte frame udpChecksumOffset).toNat_lt

/-- The ingress nibble and the legacy ports are cleared. -/
theorem received_eq (frame : List UInt8) :
    received frame = ((frame.set 26 0).set 27 0).set 24 (portsByte frame &&& 0xF) := by
  have hbyte : portsByte (clearPortsLegacy frame) = portsByte frame :=
    (byte_set_ne (by decide)).trans (byte_set_ne (by decide))
  unfold received clearIngressPort
  rw [hbyte]
  rfl

theorem byte_received {i : Nat} (hi : ipv6DestinationAddressOffset ≤ i) :
    byte (received frame) i = byte frame i := by
  simp only [ipv6DestinationAddressOffset] at hi
  rw [received_eq, byte_set_ne (by omega), byte_set_ne (by omega), byte_set_ne (by omega)]

theorem and_0xF_of_lt {x : UInt8} (h : x.toNat < 16) : x &&& 0xF = x := by
  rw [← UInt8.toNat_inj, UInt8.toNat_and]
  have := Nat.and_two_pow_sub_one_eq_mod x.toNat 4
  simp only [Nat.reducePow, Nat.add_one_sub_one] at this
  rw [show (0xF : UInt8).toNat = 15 from rfl, this]
  omega

theorem portsByte_received (hlen : frameHdrLen ≤ frame.length)
    (h : (portsByte frame).toNat < 16) : portsByte (received frame) = portsByte frame := by
  have hset : byte (((frame.set 26 0).set 27 0).set 24 (portsByte frame &&& 0xF)) 24 =
      portsByte frame &&& 0xF := byte_set_self (by
    simp only [frameHdrLen, List.length_set] at hlen ⊢
    omega)
  rw [received_eq]
  exact hset.trans (and_0xF_of_lt h)

/-- Port and checksum of a frame come through the cleaning at the receiver. -/
theorem received_stamped (hlen : frameHdrLen ≤ frame.length) {q : UInt8} (hq : q.toNat < 16)
    (v : UInt16) : received (setUint16 (setPortsByte frame q) bcmpChecksumOffset v) =
      setUint16 (setPortsByte (received frame) q) bcmpChecksumOffset v := by
  have hports : portsByte (setUint16 (setPortsByte frame q) bcmpChecksumOffset v) = q := by
    refine Eq.trans ?_ (portsByte_setPortsByte frame q hlen)
    unfold setUint16 portsByte
    rw [byte_set_ne (by decide), byte_set_ne (by decide)]
  rw [received_eq, received_eq, hports, and_0xF_of_lt hq]
  apply List.ext_getElem?
  intro i
  simp only [setUint16, setPortsByte, bcmpChecksumOffset, bcmpPacketOffset,
    ipv6IngressEgressPortsOffset, ipv6SourceAddressOffset, List.getElem?_set, List.length_set]
  split_ifs <;> first | rfl | omega

/-- The sum a receiver takes over a stamped BCMP message, against the sum before. -/
theorem totalSum_received_stamped {len : Nat} (hmin : bcmpHeaderSize ≤ len)
    (hfits : frameHdrLen + len ≤ frame.length) (q : UInt8) (c : UInt16) :
    totalSum (setUint16 (setPortsByte (received frame) q) bcmpChecksumOffset c) ipProtoBcmp len +
        (256 * (byte frame 56).toNat + (byte frame 57).toNat) =
      totalSum (setPortsByte (received frame) q) ipProtoBcmp len +
        (256 * (c.toNat % 256) + c.toNat / 256) := by
  simp only [bcmpHeaderSize] at hmin
  have hbyte : ∀ i, ipv6DestinationAddressOffset ≤ i →
      byte (setPortsByte (received frame) q) i = byte frame i := by
    intro i hi
    refine (byte_set_ne ?_).trans (byte_received hi)
    simp only [ipv6DestinationAddressOffset, ipv6IngressEgressPortsOffset,
      ipv6SourceAddressOffset] at hi ⊢
    omega
  have hsum := totalSum_setUint16 ipProtoBcmp (by omega : 4 ≤ len)
    (by rw [setPortsByte_length, received_length]; exact hfits :
      frameHdrLen + len ≤ (setPortsByte (received frame) q).length) c
  rwa [hbyte 56 (by decide), hbyte 57 (by decide)] at hsum

theorem stamp_verifies_bcmp (h : LinkLocalFrame frame) (hbcmp : Carries ipProtoBcmp frame)
    (hv : verifies frame = true) {q : UInt8} (hq : q.toNat < 16) :
    verifies (updateChecksum (· + q) (· + q.toUInt16) (setPortsByte frame q)) = true ↔
      (portsByte frame = 0 ∧ q.toNat ≤ (getUint16 frame bcmpChecksumOffset).toNat) ∨
        (portsByte frame = 1 ∧ (getUint16 frame bcmpChecksumOffset).toNat + 1 < q.toNat) := by
  have hmin := h.upper_bcmp hbcmp.next
  have hfits := h.fits
  have hlen : frameHdrLen ≤ frame.length := le_trans (Nat.le_add_right _ _) hfits
  have hc := bcmpUpdate_toNat (getUint16 frame bcmpChecksumOffset) q.toUInt16
  rw [UInt8.toNat_toUInt16] at hc
  rw [(hbcmp.setPortsByte q).updateChecksum_bcmp, getUint16_setPortsByte]
  generalize ((getUint16 frame bcmpChecksumOffset ^^^ 0xFFFF) + q.toUInt16) ^^^ 0xFFFF = c at hc
  have hsame : ipv6GetPayloadLength (setUint16 (setPortsByte frame q) bcmpChecksumOffset c) =
      ipv6GetPayloadLength frame := by
    rw [← ipv6GetPayloadLength_setPortsByte frame q]
    unfold setUint16 ipv6GetPayloadLength
    rw [uint8ToUint16_set (by decide) (by decide), uint8ToUint16_set (by decide) (by decide)]
  have hsize : (setUint16 (setPortsByte frame q) bcmpChecksumOffset c).length = frame.length := by
    simp [setUint16, setPortsByte]
  obtain ⟨hbefore, hne⟩ := (hbcmp.verifies_bcmp rfl hmin hfits).mp hv
  rw [((hbcmp.setPortsByte q).setUint16 (by decide) c).verifies_bcmp hsame hmin
    (by rw [hsize]; exact hfits), received_stamped hlen hq]
  have hports := totalSum_setPortsByte (by rw [received_length]; exact hlen) ipProtoBcmp
    (ipv6GetPayloadLength frame) q
  rw [portsByte_received hlen h.ingress] at hports
  have hsum := totalSum_received_stamped hmin hfits q c
  have hread : getUint16 (setUint16 (setPortsByte (received frame) q) bcmpChecksumOffset c)
      bcmpChecksumOffset = c := getUint16_setUint16 (by
    simp only [bcmpHeaderSize, frameHdrLen, bcmpChecksumOffset, bcmpPacketOffset] at hmin hfits ⊢
    rw [setPortsByte_length, received_length]
    omega) c
  rw [getUint16_toNat, byte_received (by decide), byte_received (by decide)] at hne
  rw [getUint16_toNat] at hc
  have hsplit : c.toNat = c.toNat % 256 + 256 * (c.toNat / 256) := (Nat.mod_add_div _ _).symm
  have hlt := c.toNat_lt
  rw [hread, getUint16_toNat frame, ← UInt8.toNat_inj, ← UInt8.toNat_inj, hsplit]
  exact bcmp_sum_iff hbefore hne hports hsum (hsplit.symm.trans hc) h.ingress hq
    (byte frame 56).toNat_lt (byte frame 57).toNat_lt (Nat.mod_lt _ (by decide)) (by omega)

/-- A frame that verifies, with its ports cleared and stamped with another port, verifies exactly
when it keeps its checksum. -/
theorem stamp_verifies_iff (h : LinkLocalFrame frame) (hv : verifies frame = true) {q : UInt8}
    (hq : q.toNat < 16) :
    verifies (networkAddEgressPort (clearPorts frame) q) = true ↔ keepsChecksum frame q = true := by
  have hlen : frameHdrLen ≤ frame.length := le_trans (Nat.le_add_right _ _) h.fits
  rw [networkAddEgressPort_clearPorts q hlen]
  rcases h.carries with hudp | hbcmp
  · rw [stamp_verifies_udp h hudp hv hq]
    simp only [keepsChecksum, hudp.next, if_true, Bool.and_eq_true, beq_iff_eq, decide_eq_true_eq,
      UInt8.le_iff_toNat_le]
  · rw [stamp_verifies_bcmp h hbcmp hv hq]
    have hne : ipProtoBcmp ≠ ipProtoUdp := by decide
    simp only [keepsChecksum, hbcmp.next, if_neg hne, Bool.or_eq_true, Bool.and_eq_true,
      beq_iff_eq, decide_eq_true_eq]

end Stamp

/-! ## One frame -/

/-- The port is added to the complemented checksum without a carry out of it. -/
def noCarry (frame : List UInt8) (portNum : UInt8) : Bool :=
  if ipv6GetNextHeader frame = ipProtoUdp then portNum ≤ byte frame udpChecksumOffset
  else portNum.toNat ≤ (getUint16 frame bcmpChecksumOffset).toNat

theorem clearPorts_eq_self {frame : List UInt8} (h : portsByte frame = 0) :
    clearPorts frame = frame := by
  unfold clearPorts setPortsByte
  rw [← h]
  exact set_byte_self frame _

/-- A frame that verifies with no ports in its source address still verifies with the egress port
stamped into it exactly when no carry is lost. -/
theorem egress_stamp_verifies_iff (frame : List UInt8) (h : LinkLocalFrame frame)
    (hports : portsByte frame = 0) (hv : verifies frame = true) (portNum : UInt8)
    (hport : 1 ≤ portNum.toNat ∧ portNum.toNat ≤ 15) :
    verifies (networkAddEgressPort frame portNum) = true ↔ noCarry frame portNum = true := by
  have hstamp := stamp_verifies_iff h hv (q := portNum) (by omega)
  rw [clearPorts_eq_self hports] at hstamp
  rw [hstamp]
  rcases h.upper with ⟨hudp, -⟩ | ⟨hbcmp, -⟩
  · simp [keepsChecksum, noCarry, hudp, hports]
  · have hne : ipProtoBcmp ≠ ipProtoUdp := by decide
    simp [keepsChecksum, noCarry, hbcmp, hne, hports]

/-- A BCMP message of node 7 without payload, to FF02::`dst`. -/
def emptyMessage (dst c₀ c₁ seq : UInt8) : List UInt8 :=
  List.replicate 12 0 ++ [0x86, 0xDD, 0x60, 0, 0, 0, 0, 13, 0xBC, 255] ++
    [0xFE, 0x80, 0, 0, 0, 0, 0, 0, 0, 0, 0, 0, 0, 0, 0, 7] ++
    [0xFF, 0x02, 0, 0, 0, 0, 0, 0, 0, 0, 0, 0, 0, 0, 0, dst] ++
    [1, 0, c₀, c₁, 0, 0, 0, seq, 0, 0, 0, 0, 0]

theorem egress_stamp_verifies_emptyMessage :
    verifies (networkAddEgressPort (emptyMessage 1 0 0xAB 0) 15) = true :=
  (egress_stamp_verifies_iff (emptyMessage 1 0 0xAB 0)
    ⟨by decide +kernel, by decide +kernel, by decide +kernel, by decide +kernel, by decide +kernel⟩
    (by decide +kernel) (by decide +kernel) 15 (by decide)).mpr (by decide +kernel)

/-- A message with the checksum 0 verifies, and is dropped once it has left by port 1. -/
theorem egress_stamp_loses_carry :
    LinkLocalFrame (emptyMessage 1 0 0 0xAB) ∧ portsByte (emptyMessage 1 0 0 0xAB) = 0 ∧
      verifies (emptyMessage 1 0 0 0xAB) = true ∧
      verifies (networkAddEgressPort (emptyMessage 1 0 0 0xAB) 1) = false :=
  ⟨⟨by decide +kernel, by decide +kernel, by decide +kernel, by decide +kernel,
    by decide +kernel⟩, by decide +kernel, by decide +kernel, by decide +kernel⟩

/-! ## All ports -/

/-- The frame reaches as far as the checksum that is updated in it. -/
structure CoversChecksum (frame : List UInt8) : Prop where
  header : frameHdrLen ≤ frame.length
  udp : Carries ipProtoUdp frame → udpChecksumOffset + 2 ≤ frame.length
  bcmp : Carries ipProtoBcmp frame → bcmpChecksumOffset + 2 ≤ frame.length

theorem LinkLocalFrame.coversChecksum {frame : List UInt8} (h : LinkLocalFrame frame) :
    CoversChecksum frame := by
  have hfits := h.fits
  refine ⟨le_trans (Nat.le_add_right _ _) hfits, fun hudp => ?_, fun hbcmp => ?_⟩
  · have hmin := h.upper_udp hudp.next
    simp only [frameHdrLen, udpHdrLen, udpChecksumOffset] at *
    omega
  · have hmin := h.upper_bcmp hbcmp.next
    simp only [frameHdrLen, bcmpHeaderSize, bcmpChecksumOffset, bcmpPacketOffset] at *
    omega

/-- A frame with neither checksum is left alone. -/
theorem updateChecksum_of_not_carries {frame : List UInt8} (hudp : ¬ Carries ipProtoUdp frame)
    (hbcmp : ¬ Carries ipProtoBcmp frame) (udp : UInt8 → UInt8) (bcmp : UInt16 → UInt16) :
    updateChecksum udp bcmp frame = frame := by
  unfold updateChecksum
  split
  next htype =>
    split
    next hnext => exact absurd ⟨htype, hnext⟩ hudp
    · split
      next hnext => exact absurd ⟨htype, hnext⟩ hbcmp
      · rfl
  · rfl

theorem carries_setPortsByte {nextHeader : UInt8} {frame : List UInt8} {v : UInt8} :
    Carries nextHeader (setPortsByte frame v) ↔ Carries nextHeader frame := by
  refine ⟨fun h => ⟨?_, ?_⟩, fun h => h.setPortsByte v⟩
  · simpa using h.type
  · simpa using h.next

/-- An update that undoes another one gives the checksum back. -/
theorem updateChecksum_undo {udp udp' : UInt8 → UInt8} {bcmp bcmp' : UInt16 → UInt16}
    (hudp : ∀ x, udp' (udp x) = x) (hbcmp : ∀ x, bcmp' (bcmp x) = x) {frame : List UInt8}
    (hcovers : CoversChecksum frame) (v : UInt8) :
    updateChecksum udp' bcmp' (setPortsByte (updateChecksum udp bcmp frame) v) =
      setPortsByte frame v := by
  by_cases h : Carries ipProtoUdp frame
  · have hlen := hcovers.udp h
    rw [h.updateChecksum_udp]
    generalize hc : udp (byte frame udpChecksumOffset ^^^ 0xFF) ^^^ 0xFF = c
    have hbyte : byte ((setPortsByte frame v).set udpChecksumOffset c) udpChecksumOffset = c :=
      byte_set_self (by rw [setPortsByte_length]; omega)
    have hback : udp' (c ^^^ 0xFF) ^^^ 0xFF = byte (setPortsByte frame v) udpChecksumOffset := by
      rw [← hc, UInt8.xor_assoc, UInt8.xor_self, UInt8.xor_zero, hudp, UInt8.xor_assoc,
        UInt8.xor_self, UInt8.xor_zero]
      exact (byte_set_ne (by decide)).symm
    rw [setPortsByte_set_comm,
      ((h.setPortsByte v).set (by decide) c).updateChecksum_udp, hbyte, hback, List.set_set]
    exact set_byte_self _ _
  · by_cases h' : Carries ipProtoBcmp frame
    · have hlen := hcovers.bcmp h'
      rw [h'.updateChecksum_bcmp]
      generalize hc : bcmp (getUint16 frame bcmpChecksumOffset ^^^ 0xFFFF) ^^^ 0xFFFF = c
      have hread : getUint16 (setUint16 (setPortsByte frame v) bcmpChecksumOffset c)
          bcmpChecksumOffset = c := getUint16_setUint16 (by rw [setPortsByte_length]; omega) c
      have hback : bcmp' (c ^^^ 0xFFFF) ^^^ 0xFFFF =
          getUint16 (setPortsByte frame v) bcmpChecksumOffset := by
        rw [← hc, UInt16.xor_assoc, UInt16.xor_self, UInt16.xor_zero, hbcmp, UInt16.xor_assoc,
          UInt16.xor_self, UInt16.xor_zero, getUint16_setPortsByte]
      rw [setPortsByte_setUint16_comm,
        ((h'.setPortsByte v).setUint16 (by decide) c).updateChecksum_bcmp, hread, hback,
        setUint16_setUint16]
      exact setUint16_getUint16 _ _
    · rw [updateChecksum_of_not_carries h h', updateChecksum_of_not_carries]
      · exact fun hset => h (carries_setPortsByte.mp hset)
      · exact fun hset => h' (carries_setPortsByte.mp hset)

/-- Stamping and reverting a frame whose ports are clear gives the frame back. -/
theorem revert_stamp {frame : List UInt8} (hcovers : CoversChecksum frame)
    (hports : portsByte frame = 0) (q : UInt8) :
    networkRevertChecksum (clearPorts (networkAddEgressPort frame q)) q = frame := by
  have hstamp : networkAddEgressPort frame q =
      updateChecksum (· + q) (· + q.toUInt16) (setPortsByte frame q) := by
    rw [← networkAddEgressPort_clearPorts q hcovers.header, clearPorts_eq_self hports]
  have hcovers' : CoversChecksum (setPortsByte frame q) := by
    refine ⟨?_, fun h => ?_, fun h => ?_⟩ <;> rw [setPortsByte_length]
    · exact hcovers.header
    · exact hcovers.udp (carries_setPortsByte.mp h)
    · exact hcovers.bcmp (carries_setPortsByte.mp h)
  have hback : updateChecksum (· - q) (· - q.toUInt16)
      (setPortsByte (updateChecksum (· + q) (· + q.toUInt16) (setPortsByte frame q)) 0) =
        setPortsByte (setPortsByte frame q) 0 :=
    updateChecksum_undo (fun x => UInt8.add_sub_cancel x q)
      (fun x => UInt16.add_sub_cancel x q.toUInt16) hcovers' 0
  rw [hstamp]
  refine hback.trans ?_
  rw [setPortsByte_setPortsByte]
  exact clearPorts_eq_self hports

/-- The ports of a device in a mask, by their index. -/
def selected (ctx : BmL2Ctx) (portMask : UInt16) : List Nat :=
  (List.range ctx.numPorts.toNat).filter (hasPort portMask)

/-- The payload is the same before every round of the loop over the ports. -/
theorem foldl_txPort {frame : List UInt8}
    (hrevert : ∀ q, networkRevertChecksum (clearPorts (networkAddEgressPort frame q)) q = frame)
    (portMask : UInt16) (idxs : List Nat) (sent : List Sent) :
    idxs.foldl (txPort portMask) (sent, frame) =
      (sent ++ (idxs.filter (hasPort portMask)).map fun portIdx =>
        (.ofNat (portIdx + 1), networkAddEgressPort frame (.ofNat (portIdx + 1))), frame) := by
  induction idxs generalizing sent with
  | nil => simp
  | cons idx idxs ih =>
    rw [List.foldl_cons]
    cases hbit : hasPort portMask idx with
    | false => simp [txPort, hbit, ih]
    | true => simp [txPort, hbit, hrevert, ih]

theorem not_isGlobalMulticast {addr : List UInt8} (h : isLinkLocalMulticast addr = true) :
    isGlobalMulticast addr = false := by
  simp only [isLinkLocalMulticast, isGlobalMulticast, Bool.and_eq_true, beq_iff_eq] at h ⊢
  simp [h.2]

/-- A link-local frame leaves by every port of the mask with that port stamped into it. -/
theorem bmL2ProcessTxEvt_of_covers (ctx : BmL2Ctx) {frame : List UInt8}
    (hdst : isLinkLocalMulticast (dstIp frame) = true) (hcovers : CoversChecksum frame)
    (hports : portsByte frame = 0) (portMask : UInt16) :
    bmL2ProcessTxEvt ctx frame portMask = (selected ctx portMask).map fun portIdx =>
      (.ofNat (portIdx + 1), networkAddEgressPort frame (.ofNat (portIdx + 1))) := by
  unfold bmL2ProcessTxEvt
  rw [not_isGlobalMulticast hdst, hdst, foldl_txPort (revert_stamp hcovers hports)]
  rfl

theorem bmL2ProcessTxEvt_linkLocal (ctx : BmL2Ctx) {frame : List UInt8} (h : LinkLocalFrame frame)
    (hports : portsByte frame = 0) (portMask : UInt16) :
    bmL2ProcessTxEvt ctx frame portMask =
      ((List.range ctx.numPorts.toNat).filter (hasPort portMask)).map fun portIdx =>
        (.ofNat (portIdx + 1), networkAddEgressPort frame (.ofNat (portIdx + 1))) :=
  bmL2ProcessTxEvt_of_covers ctx h.dst h.coversChecksum hports portMask

end BmCore.Network
