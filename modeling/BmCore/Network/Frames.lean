import BmCore.Library.Bytes
import BmCore.Library.OnesComplement

/-!
# Frames on the wire

The layout of an Ethernet frame with an IPv6 packet (`network_frames.h`, `util.h`): getters, the
ports byte in the source address, and the places of the UDP and BCMP checksums. A frame is the
list of its bytes.
-/
namespace BmCore.Network
open Library

/-! ## Layout -/

def ethernetTypeOffset : Nat := 12
def ipv6PayloadLengthOffset : Nat := 18
def ipv6NextHeaderOffset : Nat := 20
def ipv6SourceAddressOffset : Nat := 22
def ipv6DestinationAddressOffset : Nat := 38
/-- The byte with the ingress port in its upper and the egress port in its lower nibble. -/
def ipv6IngressEgressPortsOffset : Nat := ipv6SourceAddressOffset + 2
/-- Ethernet and IPv6 header. -/
def frameHdrLen : Nat := 54
def udpHdrLen : Nat := 8
def udpLengthOffset : Nat := 58
def udpChecksumOffset : Nat := 60
def bcmpPacketOffset : Nat := 54
/-- `sizeof(BcmpHeader)` -/
def bcmpHeaderSize : Nat := 13
def bcmpChecksumOffset : Nat := bcmpPacketOffset + 2

def ethernetTypeIpv6 : Nat := 0x86DD
def ipProtoUdp : UInt8 := 17
def ipProtoBcmp : UInt8 := 0xBC

/-! ## Bytes and words -/

section
variable (frame : List UInt8)

def byte (i : Nat) : UInt8 := frame.getD i 0

/-- `uint8_to_uint16`, network order. -/
def uint8ToUint16 (off : Nat) : Nat := (byte frame off).toNat * 256 + (byte frame (off + 1)).toNat

/-- A `uint16_t` field read by a little-endian host. -/
def getUint16 (off : Nat) : UInt16 :=
  .ofNat ((byte frame off).toNat + 256 * (byte frame (off + 1)).toNat)

/-- A `uint16_t` field written by a little-endian host. -/
def setUint16 (off : Nat) (v : UInt16) : List UInt8 :=
  (frame.set off (.ofNat v.toNat)).set (off + 1) (.ofNat (v.toNat / 256))

def ethernetGetType : Nat := uint8ToUint16 frame ethernetTypeOffset
def ipv6GetPayloadLength : Nat := uint8ToUint16 frame ipv6PayloadLengthOffset
def ipv6GetNextHeader : UInt8 := byte frame ipv6NextHeaderOffset
def udpGetLength : Nat := uint8ToUint16 frame udpLengthOffset

def srcIp : List UInt8 := (frame.drop ipv6SourceAddressOffset).take 16
def dstIp : List UInt8 := (frame.drop ipv6DestinationAddressOffset).take 16
/-- `len` bytes behind the IPv6 header. -/
def upperData (len : Nat) : List UInt8 := (frame.drop frameHdrLen).take len

def portsByte : UInt8 := byte frame ipv6IngressEgressPortsOffset
def setPortsByte (v : UInt8) : List UInt8 := frame.set ipv6IngressEgressPortsOffset v

end

/-! ## Addresses -/

/-- `is_global_multicast`: FF03::1 -/
def isGlobalMulticast (addr : List UInt8) : Bool :=
  byte addr 0 == 0xFF && byte addr 1 == 0x03 && byte addr 15 == 0x01

/-- `is_link_local_multicast`: FF02::x -/
def isLinkLocalMulticast (addr : List UInt8) : Bool := byte addr 0 == 0xFF && byte addr 1 == 0x02

/-- `is_link_local_neighbor_multicast`: FF02::1 -/
def isLinkLocalNeighborMulticast (addr : List UInt8) : Bool :=
  byte addr 0 == 0xFF && byte addr 1 == 0x02 && byte addr 15 == 0x01

/-! ## Setting bytes -/

section Set
variable {frame : List UInt8} {i j : Nat} {v : UInt8}

theorem byte_set_self (h : i < frame.length) : byte (frame.set i v) i = v := by
  simp [byte, List.getD_eq_getElem?_getD, h]

theorem set_byte_self (frame : List UInt8) (i : Nat) : frame.set i (byte frame i) = frame :=
  set_getD_self frame i 0

theorem byte_set_ne (h : i ≠ j) : byte (frame.set i v) j = byte frame j := by
  simp [byte, List.getD_eq_getElem?_getD, List.getElem?_set_ne h]

theorem uint8ToUint16_set {off : Nat} (h₀ : i ≠ off) (h₁ : i ≠ off + 1) :
    uint8ToUint16 (frame.set i v) off = uint8ToUint16 frame off := by
  unfold uint8ToUint16
  rw [byte_set_ne h₀, byte_set_ne h₁]

theorem dstIp_set_of_lt (h : i < ipv6DestinationAddressOffset) :
    dstIp (frame.set i v) = dstIp frame := by
  unfold dstIp
  rw [List.drop_set, if_pos h]

theorem dstIp_set_of_ge (h : frameHdrLen ≤ i) : dstIp (frame.set i v) = dstIp frame := by
  unfold dstIp
  simp only [frameHdrLen] at h
  have hge : ¬ i < ipv6DestinationAddressOffset := by
    simp only [ipv6DestinationAddressOffset]
    omega
  rw [List.drop_set, if_neg hge, List.take_set, List.set_eq_of_length_le]
  simp only [ipv6DestinationAddressOffset, List.length_take]
  omega

theorem srcIp_set_of_ge (h : ipv6DestinationAddressOffset ≤ i) :
    srcIp (frame.set i v) = srcIp frame := by
  unfold srcIp
  simp only [ipv6DestinationAddressOffset] at h
  have hge : ¬ i < ipv6SourceAddressOffset := by
    simp only [ipv6SourceAddressOffset]
    omega
  rw [List.drop_set, if_neg hge, List.take_set, List.set_eq_of_length_le]
  simp only [ipv6SourceAddressOffset, List.length_take]
  omega

/-- A byte of the source address. -/
theorem srcIp_set (k : Nat) :
    srcIp (frame.set (ipv6SourceAddressOffset + k) v) = (srcIp frame).set k v := by
  unfold srcIp
  rw [List.drop_set, if_neg (by omega), List.take_set]
  simp

theorem upperData_set_of_lt (h : i < frameHdrLen) (len : Nat) :
    upperData (frame.set i v) len = upperData frame len := by
  unfold upperData
  rw [List.drop_set, if_pos h]

/-- A byte behind the IPv6 header. -/
theorem upperData_set (k len : Nat) :
    upperData (frame.set (frameHdrLen + k) v) len = (upperData frame len).set k v := by
  unfold upperData
  rw [List.drop_set, if_neg (by omega), List.take_set]
  simp

end Set

theorem byte_srcIp (frame : List UInt8) {k : Nat} (h : k < 16) :
    byte (srcIp frame) k = byte frame (ipv6SourceAddressOffset + k) := by
  simp [byte, srcIp, List.getD_eq_getElem?_getD, h, List.getElem?_drop]

theorem byte_dstIp (frame : List UInt8) {k : Nat} (h : k < 16) :
    byte (dstIp frame) k = byte frame (ipv6DestinationAddressOffset + k) := by
  simp [byte, dstIp, List.getD_eq_getElem?_getD, h, List.getElem?_drop]

theorem byte_upperData (frame : List UInt8) {k len : Nat} (h : k < len) :
    byte (upperData frame len) k = byte frame (frameHdrLen + k) := by
  simp [byte, upperData, List.getD_eq_getElem?_getD, h, List.getElem?_drop]

theorem getUint16_toNat (frame : List UInt8) (off : Nat) : (getUint16 frame off).toNat =
    (byte frame off).toNat + 256 * (byte frame (off + 1)).toNat := by
  have h₀ := (byte frame off).toNat_lt
  have h₁ := (byte frame (off + 1)).toNat_lt
  simp only [getUint16, UInt16.toNat_ofNat']
  omega

theorem getUint16_setUint16 {frame : List UInt8} {off : Nat} (h : off + 1 < frame.length)
    (v : UInt16) : getUint16 (setUint16 frame off v) off = v := by
  have hv := v.toNat_lt
  have h₀ : byte (setUint16 frame off v) off = .ofNat v.toNat := by
    unfold setUint16
    rw [byte_set_ne (by omega), byte_set_self (by omega)]
  have h₁ : byte (setUint16 frame off v) (off + 1) = .ofNat (v.toNat / 256) :=
    byte_set_self (by simpa using h)
  rw [← UInt16.toNat_inj, getUint16_toNat, h₀, h₁, UInt8.toNat_ofNat', UInt8.toNat_ofNat']
  omega

theorem setUint16_getUint16 (frame : List UInt8) (off : Nat) :
    setUint16 frame off (getUint16 frame off) = frame := by
  have h₀ := (byte frame off).toNat_lt
  have h₁ := (byte frame (off + 1)).toNat_lt
  have hlo : UInt8.ofNat (getUint16 frame off).toNat = byte frame off := by
    rw [← UInt8.toNat_inj, UInt8.toNat_ofNat', getUint16_toNat]
    omega
  have hhi : UInt8.ofNat ((getUint16 frame off).toNat / 256) = byte frame (off + 1) := by
    rw [← UInt8.toNat_inj, UInt8.toNat_ofNat', getUint16_toNat]
    omega
  unfold setUint16
  rw [hlo, hhi, set_byte_self, set_byte_self]

theorem setUint16_setUint16 (frame : List UInt8) (off : Nat) (u v : UInt16) :
    setUint16 (setUint16 frame off u) off v = setUint16 frame off v := by
  unfold setUint16
  rw [List.set_comm _ _ (by omega : off + 1 ≠ off), List.set_set, List.set_set]

end BmCore.Network
