import BmCore.Bcmp.Frames
import BmCore.Library.ByteOrder

/-!
# UDP datagrams of the software stack

`bm_udp_tx_perform` of `bm_linux.c` puts a payload behind an Ethernet, an IPv6 and a UDP header and
hands the frame to the link layer. The checksum comes from the helper that BCMP uses, which returns
it in network order: as a number of a little-endian host it has its bytes swapped. The BCMP caller
stores that number as it is, the UDP caller writes it out byte by byte.
-/
namespace BmCore.Network
open Library

/-! ## Sending -/

/-- `ntohs` -/
def ntohsOn : ByteOrder → UInt16 → UInt16
  | .little, x => ntohs x
  | .big, x => x

/-- `ipv6_pseudo_checksum` -/
def ipv6PseudoChecksumOn (host : ByteOrder) (src dst : List UInt8) (nextHeader : UInt8)
    (length : Nat) (data : List UInt8) : UInt16 :=
  let sum := pseudoSum src dst nextHeader length data % 2 ^ 32
  ntohsOn host (~~~ UInt16.ofNat (foldCarry (2 ^ 16) sum sum))

theorem ipv6PseudoChecksumOn_little : ipv6PseudoChecksumOn .little = ipv6PseudoChecksum := rfl

/-- What the stack keeps of its node. -/
structure LinuxCtx where
  nodeId : UInt64
  llAddr : BmIpAddr

/-- `nodeid_to_ip` -/
def nodeidToIp (pre : UInt32) (nodeId : UInt64) : BmIpAddr := fun i =>
  ((leBytes 4 pre.toNat).reverse ++ [0, 0, 0, 0] ++ (leBytes 8 nodeId.toNat).reverse).getD i 0

/-- `bm_ip_init` -/
def bmIpInit (nodeId : UInt64) : LinuxCtx := ⟨nodeId, nodeidToIp 0xFE800000 nodeId⟩

/-- `is_multicast` -/
def isMulticast (addr : BmIpAddr) : Bool := addr 0 == 0xFF

/-- `multicast_mac_from_ipv6` -/
def multicastMacFromIpv6 (dst : BmIpAddr) : List UInt8 :=
  [0x33, 0x33, dst 12, dst 13, dst 14, dst 15]

/-- Ethernet and IPv6 header of a datagram of `total` bytes. -/
def udpFrameHdr (ctx : LinuxCtx) (dst : BmIpAddr) (total : Nat) : List UInt8 :=
  (if isMulticast dst then multicastMacFromIpv6 dst else List.replicate 6 0xFF) ++
    Bcmp.macFromNodeid ctx.nodeId ++ [0x86, 0xDD] ++ [0x60, 0, 0, 0] ++
    [.ofNat (total / 256), .ofNat total, ipProtoUdp, 64] ++ List.ofFn ctx.llAddr ++ List.ofFn dst

/-- The UDP header, written byte by byte. -/
def udpHdr (srcPort dstPort : UInt16) (total : Nat) (cksum : UInt16) : List UInt8 :=
  [.ofNat (srcPort.toNat / 256), .ofNat srcPort.toNat, .ofNat (dstPort.toNat / 256),
    .ofNat dstPort.toNat, .ofNat (total / 256), .ofNat total, .ofNat (cksum.toNat / 256),
    .ofNat cksum.toNat]

/-- The frame with a payload. -/
def udpFrame (host : ByteOrder) (ctx : LinuxCtx) (srcPort dstPort : UInt16) (dst : BmIpAddr)
    (payload : List UInt8) : List UInt8 :=
  let total := udpHdrLen + payload.length
  let cksum := ipv6PseudoChecksumOn host (List.ofFn ctx.llAddr) (List.ofFn dst) ipProtoUdp total
    (udpHdr srcPort dstPort total 0 ++ payload)
  udpFrameHdr ctx dst total ++ udpHdr srcPort dstPort total cksum ++ payload

/-- `bm_udp_tx_perform`, with memory for the frame or without: the frame for
`bm_l2_link_output`. A `pcb` is its bound port, a buffer its payload. -/
def bmUdpTxPerform (host : ByteOrder) (ctx : LinuxCtx) (memory : Bool) (pcb : Option UInt16)
    (buf : Option (List UInt8)) (size : Nat) (destAddr : Option BmIpAddr) (port : UInt16) :
    Except BmErr (List UInt8) :=
  match pcb, buf, destAddr with
  | some srcPort, some payload, some dst =>
    if memory then .ok (udpFrame host ctx srcPort port dst (payload.take size))
    else .error .enomem
  | _, _, _ => .error .einval

/-! ## The checksum of RFC 2460 -/

/-- The pseudo header of section 8.1. -/
def pseudoHeader (src dst : BmIpAddr) (length : Nat) (nextHeader : UInt8) : List UInt8 :=
  List.ofFn src ++ (List.ofFn dst ++ [.ofNat (length / 2 ^ 24), .ofNat (length / 2 ^ 16),
    .ofNat (length / 2 ^ 8), .ofNat length, 0, 0, 0, nextHeader])

/-- The words of pseudo header and datagram, added up. -/
def rfcSum (src dst : BmIpAddr) (datagram : List UInt8) : Nat :=
  sumWords (pseudoHeader src dst datagram.length ipProtoUdp ++ datagram)

/-- The checksum of a datagram whose checksum field is zero; zero is sent as all ones. -/
def rfcChecksum (src dst : BmIpAddr) (datagram : List UInt8) : Nat :=
  let sum := rfcSum src dst datagram
  let cksum := 65535 - foldCarry (2 ^ 16) sum sum
  if cksum = 0 then 65535 else cksum

def udpChecksum (frame : List UInt8) : Nat := uint8ToUint16 frame udpChecksumOffset

/-- A receiver discards a datagram without a checksum or with a wrong one. -/
def udpAccepted (frame : List UInt8) : Bool := udpChecksum frame != 0 && udpSumVerifies frame

/-! ## The parts of the frame -/

/-- The frame in front of its addresses. -/
def udpFramePre (ctx : LinuxCtx) (dst : BmIpAddr) (total : Nat) : List UInt8 :=
  (if isMulticast dst then multicastMacFromIpv6 dst else List.replicate 6 0xFF) ++
    Bcmp.macFromNodeid ctx.nodeId ++ [0x86, 0xDD] ++ [0x60, 0, 0, 0] ++
    [.ofNat (total / 256), .ofNat total, ipProtoUdp, 64]

section Parts
variable (ctx : LinuxCtx) (dst : BmIpAddr) (total : Nat) (rest : List UInt8)

theorem udpFramePre_eq : ∃ mac : List UInt8, mac.length = 12 ∧ udpFramePre ctx dst total = mac ++
    [0x86, 0xDD, 0x60, 0, 0, 0, .ofNat (total / 256), .ofNat total, ipProtoUdp, 64] := by
  refine ⟨(if isMulticast dst then multicastMacFromIpv6 dst else List.replicate 6 0xFF) ++
    Bcmp.macFromNodeid ctx.nodeId, ?_, ?_⟩
  · have hmac : (Bcmp.macFromNodeid ctx.nodeId).length = 6 := by simp [Bcmp.macFromNodeid]
    cases isMulticast dst <;> simp [hmac, multicastMacFromIpv6]
  · simp [udpFramePre]

theorem udpFramePre_length : (udpFramePre ctx dst total).length = 22 := by
  obtain ⟨mac, hmac, heq⟩ := udpFramePre_eq ctx dst total
  simp [heq, hmac]

theorem udpFrameHdr_eq : udpFrameHdr ctx dst total =
    udpFramePre ctx dst total ++ (List.ofFn ctx.llAddr ++ List.ofFn dst) := by
  simp [udpFrameHdr, udpFramePre]

theorem udpFrameHdr_length : (udpFrameHdr ctx dst total).length = frameHdrLen := by
  simp [udpFrameHdr_eq, udpFramePre_length, frameHdrLen]

theorem srcIp_udpFrame : srcIp (udpFrameHdr ctx dst total ++ rest) = List.ofFn ctx.llAddr := by
  have hpre := udpFramePre_length ctx dst total
  rw [udpFrameHdr_eq, List.append_assoc, List.append_assoc, srcIp, ipv6SourceAddressOffset,
    List.drop_left' hpre, List.take_left' List.length_ofFn]

theorem dstIp_udpFrame : dstIp (udpFrameHdr ctx dst total ++ rest) = List.ofFn dst := by
  have hpre := udpFramePre_length ctx dst total
  have hlength : (udpFramePre ctx dst total ++ List.ofFn ctx.llAddr).length =
      ipv6DestinationAddressOffset := by
    rw [List.length_append, hpre, List.length_ofFn, ipv6DestinationAddressOffset]
  rw [udpFrameHdr_eq, ← List.append_assoc, List.append_assoc, dstIp, List.drop_left' hlength,
    List.take_left' List.length_ofFn]

theorem drop_udpFrame : (udpFrameHdr ctx dst total ++ rest).drop frameHdrLen = rest := by
  exact List.drop_left' (udpFrameHdr_length ctx dst total)

/-- A byte behind the IPv6 header. -/
theorem byte_udpFrame (k : Nat) :
    byte (udpFrameHdr ctx dst total ++ rest) (frameHdrLen + k) = byte rest k := by
  rw [byte, List.getD_eq_getElem?_getD, ← List.getElem?_drop, drop_udpFrame, byte,
    List.getD_eq_getElem?_getD]

theorem word_udpFrame (k : Nat) : uint8ToUint16 (udpFrameHdr ctx dst total ++ rest)
    (frameHdrLen + k) = uint8ToUint16 rest k := by
  rw [uint8ToUint16, uint8ToUint16, Nat.add_assoc, byte_udpFrame, byte_udpFrame]

/-- The fields of the Ethernet and the IPv6 header. -/
theorem fields_udpFrame (htotal : total < 2 ^ 16) :
    ethernetGetType (udpFrameHdr ctx dst total ++ rest) = ethernetTypeIpv6 ∧
      ipv6GetPayloadLength (udpFrameHdr ctx dst total ++ rest) = total ∧
      ipv6GetNextHeader (udpFrameHdr ctx dst total ++ rest) = ipProtoUdp := by
  obtain ⟨mac, hmac, heq⟩ := udpFramePre_eq ctx dst total
  have hbyte : ∀ k, byte (udpFrameHdr ctx dst total ++ rest) (12 + k) =
      byte ([0x86, 0xDD, 0x60, 0, 0, 0, .ofNat (total / 256), .ofNat total, ipProtoUdp, 64] ++
        (List.ofFn ctx.llAddr ++ List.ofFn dst ++ rest)) k := by
    intro k
    have hdrop : (udpFrameHdr ctx dst total ++ rest).drop 12 =
        [0x86, 0xDD, 0x60, 0, 0, 0, .ofNat (total / 256), .ofNat total, ipProtoUdp, 64] ++
          (List.ofFn ctx.llAddr ++ List.ofFn dst ++ rest) := by
      rw [udpFrameHdr_eq, heq, List.append_assoc, List.append_assoc, List.drop_left' hmac]
    rw [byte, List.getD_eq_getElem?_getD, ← List.getElem?_drop, hdrop, byte,
      List.getD_eq_getElem?_getD]
  refine ⟨?_, ?_, hbyte 8⟩
  · have hhigh : byte (udpFrameHdr ctx dst total ++ rest) 12 = 0x86 := hbyte 0
    have hlow : byte (udpFrameHdr ctx dst total ++ rest) 13 = 0xDD := hbyte 1
    rw [ethernetGetType, uint8ToUint16, ethernetTypeOffset, hhigh, hlow]
    decide
  · have hhigh : byte (udpFrameHdr ctx dst total ++ rest) 18 = .ofNat (total / 256) := hbyte 6
    have hlow : byte (udpFrameHdr ctx dst total ++ rest) 19 = .ofNat total := hbyte 7
    rw [ipv6GetPayloadLength, uint8ToUint16, ipv6PayloadLengthOffset, hhigh, hlow,
      UInt8.toNat_ofNat', UInt8.toNat_ofNat']
    omega

end Parts

/-! ## The checksum of the frame -/

/-- A checksum as the frame carries it: a little-endian host has its bytes swapped. -/
def wireWord : ByteOrder → Nat → Nat
  | .big, c => c
  | .little, c => c % 256 * 256 + c / 256

/-- When the stored checksum is the one of RFC 2460. -/
theorem wireWord_eq_iff {host : ByteOrder} {f sum : Nat} (hpos : 0 < f) (hlt : f < 2 ^ 16)
    (hmod : f % 65535 = sum % 65535) :
    (wireWord host (65535 - f) = if 65535 - f = 0 then 65535 else 65535 - f) ↔
      sum % 65535 ≠ 0 ∧ (host = .big ∨ sum % 257 = 0) := by
  cases host with
  | big =>
    simp only [wireWord, true_or, and_true]
    split <;> omega
  | little =>
    simp only [wireWord, reduceCtorEq, false_or]
    split <;> omega

/-- When the stored checksum passes at a receiver. -/
theorem wireWord_verifies_iff {host : ByteOrder} {f sum : Nat} (hpos : 0 < f) (hlt : f < 2 ^ 16)
    (hmod : f % 65535 = sum % 65535) :
    (wireWord host (65535 - f) ≠ 0 ∧ (sum + wireWord host (65535 - f)) % 65535 = 0) ↔
      sum % 65535 ≠ 0 ∧ (host = .big ∨ sum % 257 = 0) := by
  cases host with
  | big =>
    simp only [wireWord, true_or, and_true]
    omega
  | little =>
    simp only [wireWord, reduceCtorEq, false_or]
    omega

section Checksum
variable (host : ByteOrder) (ctx : LinuxCtx) (srcPort dstPort : UInt16) (src dst : BmIpAddr)
variable {datagram : List UInt8} (payload : List UInt8)

/-- The datagram before its checksum is written. -/
def zeroedDatagram (srcPort dstPort : UInt16) (payload : List UInt8) : List UInt8 :=
  udpHdr srcPort dstPort (udpHdrLen + payload.length) 0 ++ payload

@[simp] theorem zeroedDatagram_length : (zeroedDatagram srcPort dstPort payload).length =
    udpHdrLen + payload.length := by
  simp only [zeroedDatagram, udpHdr, udpHdrLen, List.length_append, List.length_cons,
    List.length_nil]

theorem rfcSum_eq (h : datagram.length < 2 ^ 16) : rfcSum src dst datagram =
    sumWords (List.ofFn src) + sumWords (List.ofFn dst) + datagram.length + ipProtoUdp.toNat +
      sumWords datagram := by
  have hlen : ∀ k, (UInt8.ofNat (datagram.length / 2 ^ k)).toNat =
      datagram.length / 2 ^ k % 256 := fun k => UInt8.toNat_ofNat'
  have hlow : (UInt8.ofNat datagram.length).toNat = datagram.length % 256 := UInt8.toNat_ofNat'
  have hzero : (0 : UInt8).toNat = 0 := rfl
  rw [rfcSum, pseudoHeader, sumWords_append (by simp), sumWords_append (by simp),
    sumWords_append (by simp)]
  simp only [sumWords, hlen, hlow, hzero]
  omega

theorem rfcSum_pos : 0 < rfcSum src dst datagram := by
  have hnext : 0 < ipProtoUdp.toNat := by decide
  rw [rfcSum, pseudoHeader, sumWords_append (by simp), sumWords_append (by simp),
    sumWords_append (by simp)]
  simp only [sumWords]
  omega

/-- The code adds up the words of RFC 2460. -/
theorem pseudoSum_eq_rfcSum (h : datagram.length < 2 ^ 16) :
    pseudoSum (List.ofFn src) (List.ofFn dst) ipProtoUdp datagram.length datagram % 2 ^ 32 =
      rfcSum src dst datagram := by
  have hsrc := sumWords_le (List.ofFn src)
  have hdst := sumWords_le (List.ofFn dst)
  have hdata := sumWords_le datagram
  have hnext := ipProtoUdp.toNat_lt
  rw [List.length_ofFn] at hsrc hdst
  rw [rfcSum_eq src dst h, pseudoSum, List.take_length, Nat.div_eq_of_lt h, Nat.mod_eq_of_lt h]
  omega

/-- The complement of the folded sum. -/
theorem ipv6PseudoChecksumOn_toNat (h : datagram.length < 2 ^ 16) :
    (ipv6PseudoChecksumOn host (List.ofFn src) (List.ofFn dst) ipProtoUdp datagram.length
        datagram).toNat =
      wireWord host
        (65535 - foldCarry (2 ^ 16) (rfcSum src dst datagram) (rfcSum src dst datagram)) := by
  have hfold : foldCarry (2 ^ 16) (rfcSum src dst datagram) (rfcSum src dst datagram) < 2 ^ 16 :=
    foldCarry_lt (by decide) le_rfl
  simp only [ipv6PseudoChecksumOn, pseudoSum_eq_rfcSum src dst h]
  cases host with
  | big =>
    have hnat : (UInt16.ofNat (foldCarry (2 ^ 16) (rfcSum src dst datagram)
      (rfcSum src dst datagram))).toNat = _ := UInt16.toNat_ofNat_of_lt hfold
    rw [ntohsOn, UInt16.toNat_not, hnat]
    rfl
  | little => exact ntohs_not_toNat hfold

theorem udpFrame_eq : ∃ cksum,
    cksum = ipv6PseudoChecksumOn host (List.ofFn ctx.llAddr) (List.ofFn dst) ipProtoUdp
      (udpHdrLen + payload.length) (zeroedDatagram srcPort dstPort payload) ∧
    udpFrame host ctx srcPort dstPort dst payload =
      udpFrameHdr ctx dst (udpHdrLen + payload.length) ++
        (udpHdr srcPort dstPort (udpHdrLen + payload.length) cksum ++ payload) :=
  ⟨_, rfl, by rw [udpFrame, zeroedDatagram, List.append_assoc]⟩

/-- A number of two bytes, the high one first. -/
theorem split_uint16 {n : Nat} (h : n < 2 ^ 16) :
    (UInt8.ofNat (n / 256)).toNat * 256 + (UInt8.ofNat n).toNat = n := by
  rw [UInt8.toNat_ofNat', UInt8.toNat_ofNat']
  omega

/-- The checksum is written most significant byte first. -/
theorem udpChecksum_udpFrame : udpChecksum (udpFrame host ctx srcPort dstPort dst payload) =
    (ipv6PseudoChecksumOn host (List.ofFn ctx.llAddr) (List.ofFn dst) ipProtoUdp
      (udpHdrLen + payload.length) (zeroedDatagram srcPort dstPort payload)).toNat := by
  obtain ⟨cksum, hcksum, heq⟩ := udpFrame_eq host ctx srcPort dstPort dst payload
  rw [← hcksum, heq]
  exact (word_udpFrame ctx dst _ _ 6).trans (split_uint16 cksum.toNat_lt)

theorem udpGetLength_udpFrame (h : udpHdrLen + payload.length < 2 ^ 16) :
    udpGetLength (udpFrame host ctx srcPort dstPort dst payload) = udpHdrLen + payload.length := by
  obtain ⟨cksum, -, heq⟩ := udpFrame_eq host ctx srcPort dstPort dst payload
  rw [heq]
  exact (word_udpFrame ctx dst _ _ 4).trans (split_uint16 h)

/-- The sum at the receiver takes in the checksum. -/
theorem totalSum_udpFrame (h : udpHdrLen + payload.length < 2 ^ 16) :
    totalSum (udpFrame host ctx srcPort dstPort dst payload) ipProtoUdp
        (udpHdrLen + payload.length) =
      rfcSum ctx.llAddr dst (zeroedDatagram srcPort dstPort payload) +
        udpChecksum (udpFrame host ctx srcPort dstPort dst payload) := by
  obtain ⟨cksum, hcksum, heq⟩ := udpFrame_eq host ctx srcPort dstPort dst payload
  rw [udpChecksum_udpFrame, rfcSum_eq ctx.llAddr dst (by simpa using h), zeroedDatagram_length,
    ← hcksum, heq]
  have hlt := cksum.toNat_lt
  have hupper : upperData (udpFrameHdr ctx dst (udpHdrLen + payload.length) ++
      (udpHdr srcPort dstPort (udpHdrLen + payload.length) cksum ++ payload))
        (udpHdrLen + payload.length) =
      udpHdr srcPort dstPort (udpHdrLen + payload.length) cksum ++ payload := by
    rw [upperData, drop_udpFrame]
    refine List.take_of_length_le ?_
    simp only [udpHdr, udpHdrLen, List.length_append, List.length_cons, List.length_nil]
    omega
  have hhdr : ∀ c, (udpHdr srcPort dstPort (udpHdrLen + payload.length) c).length % 2 = 0 := by
    intro c
    simp [udpHdr]
  rw [totalSum, srcIp_udpFrame, dstIp_udpFrame, hupper, zeroedDatagram,
    sumWords_append (hhdr _), sumWords_append (hhdr _)]
  have hzero : (0 : UInt16).toNat = 0 := rfl
  simp only [udpHdr, sumWords, UInt8.toNat_ofNat', hzero]
  omega

end Checksum

/-- Only a host that stores words in network order gets the bytes of the checksum right, or one
whose checksum has two equal bytes; and nothing turns a zero checksum into ones. The frame carries
the checksum of RFC 2460 in that case only, and in that case only a receiver takes it. -/
theorem udp_checksum_on_wire_iff (host : ByteOrder) (ctx : LinuxCtx) (srcPort port : UInt16)
    (dst : BmIpAddr) (buf : List UInt8) (size : Nat) (hbuf : size ≤ buf.length)
    (hsize : udpHdrLen + size ≤ 65535) :
    let datagram := zeroedDatagram srcPort port (buf.take size)
    let sum := rfcSum ctx.llAddr dst datagram
    let right := sum % 65535 ≠ 0 ∧ (host = .big ∨ sum % 257 = 0)
    ∃ frame, bmUdpTxPerform host ctx true (some srcPort) (some buf) size (some dst) port =
        .ok frame ∧
      (udpChecksum frame = rfcChecksum ctx.llAddr dst datagram ↔ right) ∧
      (udpAccepted frame = true ↔ right) ∧
      (dst 13 = 0 → ∀ l2, (bmL2LinkOutput l2 frame).1 = frame) := by
  intro datagram sum right
  have hlength : (buf.take size).length = size := List.length_take_of_le hbuf
  have hfits : udpHdrLen + (buf.take size).length < 2 ^ 16 := by omega
  have hdatagram : datagram.length < 2 ^ 16 := by simpa [datagram] using hfits
  have hcksum := udpChecksum_udpFrame host ctx srcPort port dst (buf.take size)
  have hvalue := ipv6PseudoChecksumOn_toNat host ctx.llAddr dst hdatagram
  have htotal := totalSum_udpFrame host ctx srcPort port dst _ hfits
  have hmod : foldCarry (2 ^ 16) sum sum % 65535 = sum % 65535 :=
    foldCarry_modEq (b := 2 ^ 16) (by decide) sum sum
  have hlt : foldCarry (2 ^ 16) sum sum < 2 ^ 16 := foldCarry_lt (by decide) le_rfl
  have hpos : 0 < foldCarry (2 ^ 16) sum sum := foldCarry_pos sum (rfcSum_pos ctx.llAddr dst)
  rw [show datagram.length = udpHdrLen + (buf.take size).length from zeroedDatagram_length ..]
    at hvalue
  rw [hvalue] at hcksum
  refine ⟨_, rfl, ?_, ?_, ?_⟩
  · rw [hcksum]
    exact wireWord_eq_iff hpos hlt hmod
  · rw [udpAccepted, Bool.and_eq_true, bne_iff_ne, udpSumVerifies_iff,
      udpGetLength_udpFrame host ctx srcPort port dst _ hfits, htotal, hcksum]
    exact wireWord_verifies_iff hpos hlt hmod
  · intro hdst l2
    have hbyte : byte (udpFrame host ctx srcPort port dst (buf.take size)) egressIdx = 0 := by
      rw [egressIdx, ← byte_dstIp _ (by decide), udpFrame, List.append_assoc, dstIp_udpFrame]
      simpa [byte] using hdst
    rw [bmL2LinkOutput, bmL2Tx, ← hbyte, set_byte_self]

/-- FF03::1 -/
def multicastGlobalAddr : BmIpAddr :=
  fun i => [0xFF, 0x03, 0, 0, 0, 0, 0, 0, 0, 0, 0, 0, 0, 0, 0, 1].getD i 0

theorem udp_checksum_on_wire_big : ∃ frame,
    bmUdpTxPerform .big (bmIpInit 7) true (some 4321) (some [1, 2, 3]) 3
      (some multicastGlobalAddr) 4321 = .ok frame ∧ udpAccepted frame = true := by
  obtain ⟨frame, hframe, -, haccepted, -⟩ := udp_checksum_on_wire_iff .big (bmIpInit 7) 4321 4321
    multicastGlobalAddr [1, 2, 3] 3 (by decide) (by decide)
  exact ⟨frame, hframe, haccepted.mpr (by decide +kernel)⟩

/-- A little-endian node greets everyone, and nobody listens. -/
theorem udp_checksum_swapped :
    let frame := udpFrame .little (bmIpInit 7) 4321 4321 multicastGlobalAddr [1, 2, 3]
    bmUdpTxPerform .little (bmIpInit 7) true (some 4321) (some [1, 2, 3]) 3
        (some multicastGlobalAddr) 4321 = .ok frame ∧
      udpChecksum frame ≠ rfcChecksum (bmIpInit 7).llAddr multicastGlobalAddr
        (zeroedDatagram 4321 4321 [1, 2, 3]) ∧ udpAccepted frame = false :=
  ⟨rfl, by decide +kernel, by decide +kernel⟩

end BmCore.Network
