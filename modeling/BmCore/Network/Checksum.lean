import BmCore.Network.Frames

/-!
# Checksums at the receiver

The checksum over the IPv6 pseudo header and the upper-layer data (`bm_linux.c`), and the check a
received BCMP message has to pass (`packet.c`). A UDP datagram is checked by the IP stack with the
sum of RFC 2460. Either way a frame passes when its total sum is a multiple of `2 ^ 16 - 1`; the
BCMP check also refuses the checksum `0xFFFF`, which the sender never computes.
-/
namespace BmCore.Network
open Library

/-- The sum of `ipv6_pseudo_checksum` before the carries are folded. -/
def pseudoSum (src dst : List UInt8) (nextHeader : UInt8) (length : Nat) (data : List UInt8) :
    Nat :=
  sumWords src + sumWords dst + (length / 2 ^ 16 % 2 ^ 16 + length % 2 ^ 16) +
    nextHeader.toNat + sumWords (data.take length)

/-- `ntohs` on a little-endian host. -/
def ntohs (x : UInt16) : UInt16 := .ofNat (x.toNat % 256 * 256 + x.toNat / 256)

/-- `ipv6_pseudo_checksum` -/
def ipv6PseudoChecksum (src dst : List UInt8) (nextHeader : UInt8) (length : Nat)
    (data : List UInt8) : UInt16 :=
  let sum := pseudoSum src dst nextHeader length data % 2 ^ 32
  ntohs (~~~ UInt16.ofNat (foldCarry (2 ^ 16) sum sum))

/-- `message_get_checksum` -/
def messageGetChecksum (frame : List UInt8) (size : Nat) : UInt16 :=
  ipv6PseudoChecksum (srcIp frame) (dstIp frame) ipProtoBcmp size (upperData frame size)

/-- `clear_ports_legacy`: the low half of the second 32-bit word of the source address. -/
def clearPortsLegacy (frame : List UInt8) : List UInt8 :=
  (frame.set (ipv6SourceAddressOffset + 4) 0).set (ipv6SourceAddressOffset + 5) 0

/-- `clear_ingress_port` -/
def clearIngressPort (frame : List UInt8) : List UInt8 :=
  setPortsByte frame (portsByte frame &&& 0xF)

/-- `process_received_message` up to the checksum check: the message that is processed, or none
when it is dropped with `BmEBADMSG`. -/
def processReceivedMessage (frame : List UInt8) (size : Nat) : Option (List UInt8) :=
  let frame := clearIngressPort (clearPortsLegacy frame)
  let checksumRead := getUint16 frame bcmpChecksumOffset
  let zeroed := setUint16 frame bcmpChecksumOffset 0
  let checksumCalc := messageGetChecksum zeroed (size + bcmpHeaderSize)
  if checksumCalc ≠ checksumRead then none
  else some (setUint16 zeroed bcmpChecksumOffset checksumRead)

/-- The sum of RFC 2460 over a UDP datagram, checksum included, is all ones. -/
def udpSumVerifies (frame : List UInt8) : Bool :=
  let sum := pseudoSum (srcIp frame) (dstIp frame) ipProtoUdp (udpGetLength frame)
    (upperData frame (udpGetLength frame))
  foldCarry (2 ^ 16) sum sum == 0xFFFF

/-- The checksum verifies at the receiver. -/
def verifies (frame : List UInt8) : Bool :=
  if ipv6GetNextHeader frame = ipProtoUdp then udpSumVerifies frame
  else if ipv6GetNextHeader frame = ipProtoBcmp then
    (processReceivedMessage frame (ipv6GetPayloadLength frame - bcmpHeaderSize)).isSome
  else false

/-- A frame with a UDP datagram or a BCMP message to a link-local multicast address, as
`bm_l2_submit` lets it pass, with no ingress port on the wire. -/
structure LinkLocalFrame (frame : List UInt8) : Prop where
  ethertype : ethernetGetType frame = ethernetTypeIpv6
  dst : isLinkLocalMulticast (dstIp frame) = true
  fits : frameHdrLen + ipv6GetPayloadLength frame ≤ frame.length
  upper : (ipv6GetNextHeader frame = ipProtoUdp ∧ udpHdrLen ≤ udpGetLength frame ∧
      udpGetLength frame ≤ ipv6GetPayloadLength frame) ∨
    (ipv6GetNextHeader frame = ipProtoBcmp ∧ bcmpHeaderSize ≤ ipv6GetPayloadLength frame)
  ingress : (portsByte frame).toNat < 16

/-! ## Sums of a frame -/

/-- The sum over pseudo header and upper-layer data, checksum included. -/
def totalSum (frame : List UInt8) (nextHeader : UInt8) (len : Nat) : Nat :=
  sumWords (srcIp frame) + sumWords (dstIp frame) + len + nextHeader.toNat +
    sumWords (upperData frame len)

section Total
variable {frame : List UInt8} {nextHeader : UInt8} {len : Nat}

theorem uint8ToUint16_lt (frame : List UInt8) (off : Nat) : uint8ToUint16 frame off < 2 ^ 16 := by
  have h₀ := (byte frame off).toNat_lt
  have h₁ := (byte frame (off + 1)).toNat_lt
  unfold uint8ToUint16
  omega

theorem pseudoSum_eq (h : len < 2 ^ 16) :
    pseudoSum (srcIp frame) (dstIp frame) nextHeader len (upperData frame len) =
      totalSum frame nextHeader len := by
  have htake : (upperData frame len).take len = upperData frame len := by
    simp [upperData, List.take_take]
  unfold pseudoSum totalSum
  rw [htake, Nat.div_eq_of_lt h, Nat.mod_eq_of_lt h]
  omega

/-- The 32-bit sum does not wrap. -/
theorem totalSum_lt (h : len < 2 ^ 16) : totalSum frame nextHeader len < 2 ^ 32 := by
  have hsrc := sumWords_le (srcIp frame)
  have hdst := sumWords_le (dstIp frame)
  have hdata := sumWords_le (upperData frame len)
  have h₁ : (srcIp frame).length ≤ 16 := by simp [srcIp]
  have h₂ : (dstIp frame).length ≤ 16 := by simp [dstIp]
  have h₃ : (upperData frame len).length ≤ len := by simp [upperData]
  have hnext := nextHeader.toNat_lt
  unfold totalSum
  omega

/-- Replacing a byte of the source address. -/
theorem totalSum_set_src (hlen : frameHdrLen ≤ frame.length) {k : Nat} (hk : k < 16) (v : UInt8) :
    totalSum (frame.set (ipv6SourceAddressOffset + k) v) nextHeader len +
        byteWeight k * (byte frame (ipv6SourceAddressOffset + k)).toNat =
      totalSum frame nextHeader len + byteWeight k * v.toNat := by
  have hsrc : k < (srcIp frame).length := by
    simp only [srcIp, ipv6SourceAddressOffset, frameHdrLen, List.length_take,
      List.length_drop] at hlen ⊢
    omega
  have hset := sumWords_set (srcIp frame) k v hsrc
  have hbyte : (srcIp frame).getD k 0 = byte frame (ipv6SourceAddressOffset + k) :=
    byte_srcIp frame hk
  have hdst : dstIp (frame.set (ipv6SourceAddressOffset + k) v) = dstIp frame :=
    dstIp_set_of_lt (by simp only [ipv6SourceAddressOffset, ipv6DestinationAddressOffset]; omega)
  have hdata : upperData (frame.set (ipv6SourceAddressOffset + k) v) len = upperData frame len :=
    upperData_set_of_lt (by simp only [ipv6SourceAddressOffset, frameHdrLen]; omega) len
  unfold totalSum
  rw [srcIp_set, hdst, hdata]
  rw [hbyte] at hset
  omega

/-- Replacing a byte of the upper-layer data. -/
theorem totalSum_set_upper (nextHeader : UInt8) {k : Nat} (hk : k < len)
    (hlen : frameHdrLen + len ≤ frame.length) (v : UInt8) :
    totalSum (frame.set (frameHdrLen + k) v) nextHeader len +
        byteWeight k * (byte frame (frameHdrLen + k)).toNat =
      totalSum frame nextHeader len + byteWeight k * v.toNat := by
  have hdata : k < (upperData frame len).length := by
    simp only [upperData, frameHdrLen, List.length_take, List.length_drop] at hlen ⊢
    omega
  have hset := sumWords_set (upperData frame len) k v hdata
  have hbyte : (upperData frame len).getD k 0 = byte frame (frameHdrLen + k) :=
    byte_upperData frame hk
  have hsrc : srcIp (frame.set (frameHdrLen + k) v) = srcIp frame :=
    srcIp_set_of_ge (by simp only [frameHdrLen, ipv6DestinationAddressOffset]; omega)
  have hdst : dstIp (frame.set (frameHdrLen + k) v) = dstIp frame :=
    dstIp_set_of_ge (by omega)
  unfold totalSum
  rw [hsrc, hdst, upperData_set]
  rw [hbyte] at hset
  omega

/-- Replacing the BCMP checksum: the host writes its low byte first, the sum reads it as a high
byte. -/
theorem totalSum_setUint16 (nextHeader : UInt8) (hlen : 4 ≤ len)
    (hfits : frameHdrLen + len ≤ frame.length) (v : UInt16) :
    totalSum (setUint16 frame bcmpChecksumOffset v) nextHeader len +
        (256 * (byte frame 56).toNat + (byte frame 57).toNat) =
      totalSum frame nextHeader len + (256 * (v.toNat % 256) + v.toNat / 256) := by
  have hlo : (UInt8.ofNat v.toNat).toNat = v.toNat % 256 := UInt8.toNat_ofNat'
  have hhi : (UInt8.ofNat (v.toNat / 256)).toNat = v.toNat / 256 := by
    have hv := v.toNat_lt
    rw [UInt8.toNat_ofNat']
    omega
  have hfirst := totalSum_set_upper nextHeader (k := 2) (by omega) hfits (.ofNat v.toNat)
  have hsecond := totalSum_set_upper nextHeader (k := 3) (by omega)
    (by simpa using hfits : frameHdrLen + len ≤
      (frame.set (frameHdrLen + 2) (.ofNat v.toNat)).length) (.ofNat (v.toNat / 256))
  have hbyte : byte (frame.set (frameHdrLen + 2) (.ofNat v.toNat)) (frameHdrLen + 3) =
      byte frame (frameHdrLen + 3) := byte_set_ne (by decide)
  rw [hbyte, hhi] at hsecond
  rw [hlo] at hfirst
  have hset : setUint16 frame bcmpChecksumOffset v =
      (frame.set (frameHdrLen + 2) (.ofNat v.toNat)).set (frameHdrLen + 3)
        (.ofNat (v.toNat / 256)) := rfl
  have h₂ : byteWeight 2 = 256 := rfl
  have h₃ : byteWeight 3 = 1 := rfl
  rw [h₂] at hfirst
  rw [h₃] at hsecond
  rw [hset]
  simp only [frameHdrLen, Nat.reduceAdd] at hfirst hsecond ⊢
  omega

end Total

/-! ## When a checksum verifies -/

theorem udpSumVerifies_iff (frame : List UInt8) : udpSumVerifies frame = true ↔
    totalSum frame ipProtoUdp (udpGetLength frame) % 65535 = 0 := by
  have hpos : 0 < totalSum frame ipProtoUdp (udpGetLength frame) := by
    have : 0 < ipProtoUdp.toNat := by decide
    unfold totalSum
    omega
  have hlen : udpGetLength frame < 2 ^ 16 := uint8ToUint16_lt frame udpLengthOffset
  unfold udpSumVerifies
  dsimp only
  rw [pseudoSum_eq hlen, beq_iff_eq, foldCarry_eq_iff (by decide) hpos (by decide) (by decide)]
  rfl

theorem ntohs_not_toNat {x : Nat} (h : x < 2 ^ 16) : (ntohs (~~~ UInt16.ofNat x)).toNat =
    (65535 - x) % 256 * 256 + (65535 - x) / 256 := by
  have hx : (UInt16.ofNat x).toNat = x := UInt16.toNat_ofNat_of_lt h
  have hnot : (~~~ UInt16.ofNat x).toNat = 65535 - x := by
    rw [UInt16.toNat_not, hx]
    rfl
  simp only [ntohs, hnot, UInt16.toNat_ofNat']
  omega

/-- The computed checksum is the one in the message. -/
theorem messageGetChecksum_eq_iff {frame : List UInt8} {len : Nat} {c : UInt16}
    (hlen : len < 2 ^ 16) : messageGetChecksum frame len = c ↔
      (totalSum frame ipProtoBcmp len + (c.toNat % 256 * 256 + c.toNat / 256)) % 65535 = 0 ∧
        c.toNat ≠ 65535 := by
  have hpos : 0 < totalSum frame ipProtoBcmp len := by
    have : 0 < ipProtoBcmp.toNat := by decide
    unfold totalSum
    omega
  have hfold := foldCarry_lt (b := 2 ^ 16) (by decide) (le_refl (totalSum frame ipProtoBcmp len))
  have hfold' := foldCarry_pos (b := 2 ^ 16) (totalSum frame ipProtoBcmp len) hpos
  have hc := c.toNat_lt
  have heq : messageGetChecksum frame len = c ↔ foldCarry (2 ^ 16)
      (totalSum frame ipProtoBcmp len) (totalSum frame ipProtoBcmp len) =
        65535 - (c.toNat % 256 * 256 + c.toNat / 256) := by
    unfold messageGetChecksum ipv6PseudoChecksum
    rw [pseudoSum_eq hlen, Nat.mod_eq_of_lt (totalSum_lt hlen), ← UInt16.toNat_inj,
      ntohs_not_toNat hfold]
    omega
  rw [heq]
  by_cases hall : c.toNat = 65535
  · rw [hall]
    simp only [ne_eq, not_true_eq_false, and_false, iff_false]
    omega
  · rw [foldCarry_eq_iff (by decide) hpos (by omega) (by omega)]
    unfold Nat.ModEq
    omega

/-- The message as the check sees it. -/
def received (frame : List UInt8) : List UInt8 := clearIngressPort (clearPortsLegacy frame)

@[simp] theorem received_length (frame : List UInt8) : (received frame).length = frame.length := by
  simp [received, clearIngressPort, clearPortsLegacy, setPortsByte]

theorem processReceivedMessage_isSome_iff {frame : List UInt8} {size : Nat}
    (hlen : size + bcmpHeaderSize < 2 ^ 16)
    (hfits : frameHdrLen + (size + bcmpHeaderSize) ≤ frame.length) :
    (processReceivedMessage frame size).isSome = true ↔
      totalSum (received frame) ipProtoBcmp (size + bcmpHeaderSize) % 65535 = 0 ∧
        (getUint16 (received frame) bcmpChecksumOffset).toNat ≠ 65535 := by
  have hsome : (processReceivedMessage frame size).isSome = true ↔
      messageGetChecksum (setUint16 (received frame) bcmpChecksumOffset 0)
        (size + bcmpHeaderSize) = getUint16 (received frame) bcmpChecksumOffset := by
    unfold processReceivedMessage
    dsimp only
    split
    next h => simpa [received] using h
    next h => simpa [received] using h
  have hfits' : frameHdrLen + (size + bcmpHeaderSize) ≤ (received frame).length := by
    rw [received_length]
    exact hfits
  have htotal := totalSum_setUint16 ipProtoBcmp (by simp [bcmpHeaderSize]) hfits' 0
  have hread := getUint16_toNat (received frame) bcmpChecksumOffset
  have h₀ := (byte (received frame) 56).toNat_lt
  have h₁ := (byte (received frame) 57).toNat_lt
  have hzero : (0 : UInt16).toNat = 0 := rfl
  rw [hsome, messageGetChecksum_eq_iff hlen]
  rw [hzero] at htotal
  simp only [bcmpChecksumOffset, bcmpPacketOffset, Nat.reduceAdd] at hread htotal ⊢
  rw [hread]
  omega

end BmCore.Network
