import BmCore.Bcmp.Frames
import BmCore.Network.Udp

/-!
# Link-local forwarding

The loop of `bcmp_ll_forward`, buffer by buffer. Every port but the one the message came by gets a
frame of its own: the received header is written into it twice, without a checksum and with the one
that is computed over the first copy, and the port goes into the destination address, where the link
layer finds it and takes it out again. The checksum is the one of the frame that leaves.
-/
namespace BmCore.Bcmp
open Library BmCore.Network

/-! ## Buffers of the IP stack -/

/-- `memcpy` into a buffer -/
def memcpy (buf : List UInt8) (off : Nat) (bs : List UInt8) : List UInt8 :=
  buf.take off ++ bs ++ buf.drop (off + bs.length)

/-- The bytes that `bm_malloc` finds in the memory of a new buffer, or none. -/
abbrev Malloc := Option (Nat → UInt8)

/-- `bm_ip_tx_new` -/
def bmIpTxNew (nodeId : UInt64) (memory : Malloc) (dst : List UInt8) (size : Nat) :
    Option (List UInt8) :=
  memory.map fun old =>
    let frame := (List.range ((frameHdrLen + size) % 2 ^ 32)).map old
    memcpy (memcpy frame ipv6SourceAddressOffset (llAddr nodeId)) ipv6DestinationAddressOffset dst

/-- `bm_ip_tx_copy` -/
def bmIpTxCopy (frame data : List UInt8) (size offset : Nat) : List UInt8 :=
  memcpy frame (frameHdrLen + offset) (data.take size)

/-- `bm_ip_tx_perform` up to `bm_l2_link_output`: the headers that it writes. -/
def bmIpTxHeaders (nodeId : UInt64) (frame dst : List UInt8) : List UInt8 :=
  let dataSize := frame.length - frameHdrLen
  let frame := memcpy frame 0
    (if byte dst 0 = 0xFF then [0x33, 0x33] ++ dst.drop 12 else List.replicate 6 0xFF)
  let frame := memcpy frame 6 (macFromNodeid nodeId)
  let frame := memcpy frame 12 [0x86, 0xDD]
  let frame := memcpy frame 14
    [0x60, 0, 0, 0, .ofNat (dataSize / 256), .ofNat dataSize, ipProtoBcmp, 64]
  memcpy frame ipv6DestinationAddressOffset dst

/-- A frame for `bm_l2_link_output` and the port it is meant for. -/
structure ForwardTx where
  egressPort : UInt8
  frame : List UInt8

/-- What `bcmp_ll_forward` works on: the received header, the frames so far and its result. -/
structure LlForward where
  header : List UInt8
  sent : List ForwardTx := []
  err : BmErr := .einval

section Loop
variable (nodeId : UInt64) (memory : UInt8 → Malloc) (tx : UInt8 → BmErr) (payload : List UInt8)
  (size : Nat) (ingressPort : UInt8)

/-- The loop of `bcmp_ll_forward` over the ports that are left. `tx` is the result of
`bm_ip_tx_perform` for a port. -/
def llForwardPorts : List Nat → LlForward → LlForward
  | [], s => s
  | port :: ports, s =>
    let egressPort := UInt8.ofNat port
    if egressPort = ingressPort then llForwardPorts ports s
    else
      match bmIpTxNew nodeId (memory egressPort) multicastLlAddr
          ((size + bcmpHeaderSize) % 2 ^ 32) with
      | none => { s with err := .enomem }
      | some forward =>
        let header := setChecksum s.header 0
        let forward := bmIpTxCopy forward header bcmpHeaderSize 0
        let forward := bmIpTxCopy forward payload size bcmpHeaderSize
        let header := setChecksum header
          (Network.messageGetChecksum forward ((size + bcmpHeaderSize) % 2 ^ 32))
        let forward := bmIpTxCopy forward header bcmpHeaderSize 0
        let frame := bmIpTxHeaders nodeId forward (portSpecificDst egressPort)
        let txErr := tx egressPort
        llForwardPorts ports
          { header, sent := s.sent ++ [⟨egressPort, frame⟩],
            err := if txErr ≠ .ok then (if s.err ≠ .ok then txErr else s.err) else .ok }

/-- `bcmp_ll_forward` of a header and a payload. -/
def llForward (numPorts : UInt8) (header : List UInt8) : LlForward :=
  llForwardPorts nodeId memory tx payload size ingressPort
    ((List.range numPorts.toNat).map (· + 1)) { header }

end Loop

/-! ## One frame -/

section Segments
variable {a b b' c : List UInt8}

/-- Writing over the first bytes of a buffer. -/
theorem memcpy_head (h : b.length = b'.length) : memcpy (b ++ c) 0 b' = b' ++ c := by
  rw [memcpy, List.take_zero, Nat.zero_add, List.drop_left' h, List.nil_append]

/-- Writing behind the first bytes of a buffer. -/
theorem memcpy_skip {n : Nat} (h : a.length = n) (off : Nat) (bs : List UInt8) :
    memcpy (a ++ c) (n + off) bs = a ++ memcpy c off bs := by
  subst h
  have htake : (a ++ c).take (a.length + off) = a ++ c.take off := List.take_length_add_append off
  have hdrop : (a ++ c).drop (a.length + off + bs.length) = c.drop (off + bs.length) := by
    rw [Nat.add_assoc]
    exact List.drop_length_add_append (off + bs.length)
  rw [memcpy, memcpy, htake, hdrop, List.append_assoc, List.append_assoc, List.append_assoc]

/-- A buffer falls into segments. -/
theorem exists_segment {n m : Nat} {buf : List UInt8} (h : buf.length = n + m) :
    ∃ b c : List UInt8, buf = b ++ c ∧ b.length = n ∧ c.length = m :=
  ⟨buf.take n, buf.drop n, (List.take_append_drop n buf).symm, by simp [h], by simp [h]⟩

end Segments

/-- Between its addresses and its data the frame is written anew, whatever was in the buffer. -/
theorem bmIpTxHeaders_eq (nodeId : UInt64) {pre src dst old data : List UInt8}
    (hpre : pre.length = ipv6SourceAddressOffset) (hsrc : src.length = 16) (hold : old.length = 16)
    (hdst : dst.length = 16) (hmulticast : byte dst 0 = 0xFF) :
    bmIpTxHeaders nodeId (pre ++ (src ++ (old ++ data))) dst =
      bmIpTxPerform nodeId ⟨src, dst, data⟩ dst := by
  obtain ⟨mac, rest, rfl, hmac, hrest⟩ := exists_segment (n := 6) (m := 16) hpre
  obtain ⟨own, rest, rfl, hown, hrest⟩ := exists_segment (n := 6) (m := 10) hrest
  obtain ⟨type, ip, rfl, htype, hip⟩ := exists_segment (n := 2) (m := 8) hrest
  have hlen : (mac ++ (own ++ (type ++ (ip ++ (src ++ (old ++ data)))))).length - frameHdrLen =
      data.length := by
    simp only [List.length_append, hmac, hown, htype, hip, hsrc, hold, frameHdrLen]
    omega
  have hmac' : (macFromNodeid nodeId).length = 6 := by simp [macFromNodeid]
  have hdst' : (dst.drop 12).length = 4 := by simp [hdst]
  simp only [List.append_assoc]
  simp only [bmIpTxHeaders, hlen, if_pos hmulticast]
  generalize hto : [0x33, 0x33] ++ dst.drop 12 = ethDst
  have hto' : ethDst.length = 6 := by simp [← hto, hdst']
  generalize hfields : [0x60, 0, 0, 0, UInt8.ofNat (data.length / 256), UInt8.ofNat data.length,
    ipProtoBcmp, 64] = fields
  have hfields' : fields.length = 8 := by simp [← hfields]
  have hoff : ipv6DestinationAddressOffset = 6 + 32 := rfl
  rw [memcpy_head (by rw [hmac, hto']), memcpy_skip hto' 0, memcpy_head (by rw [hown, hmac']),
    memcpy_skip hto' 6, memcpy_skip hmac' 0, memcpy_head (by rw [htype]; rfl),
    memcpy_skip hto' 8, memcpy_skip hmac' 2, memcpy_skip (n := 2) rfl 0,
    memcpy_head (by rw [hip, hfields']), hoff, memcpy_skip hto' 32, memcpy_skip hmac' 26,
    memcpy_skip (n := 2) rfl 24, memcpy_skip hfields' 16, memcpy_skip hsrc 0,
    memcpy_head (by rw [hold, hdst])]
  rw [← hto, ← hfields]
  simp only [bmIpTxPerform, List.append_assoc]
  rfl

/-- A new buffer has its addresses, and room for its data. -/
theorem bmIpTxNew_eq (nodeId : UInt64) (old : Nat → UInt8) {size : Nat}
    (hsize : frameHdrLen + size < 2 ^ 32) : ∃ pre data : List UInt8,
    pre.length = ipv6SourceAddressOffset ∧ data.length = size ∧
      bmIpTxNew nodeId (some old) multicastLlAddr size =
        some (pre ++ (llAddr nodeId ++ (multicastLlAddr ++ data))) := by
  have hlength : ((List.range ((frameHdrLen + size) % 2 ^ 32)).map old).length =
      ipv6SourceAddressOffset + (16 + (16 + size)) := by
    rw [List.length_map, List.length_range, Nat.mod_eq_of_lt hsize]
    simp only [frameHdrLen, ipv6SourceAddressOffset]
    omega
  obtain ⟨pre, rest, heq, hpre, hrest⟩ := exists_segment hlength
  obtain ⟨src, rest, rfl, hsrc, hrest⟩ := exists_segment hrest
  obtain ⟨dst, data, rfl, hdst, hdata⟩ := exists_segment hrest
  have haddr : (llAddr nodeId).length = 16 := by simp [llAddr]
  refine ⟨pre, data, hpre, hdata, ?_⟩
  have hoff : ipv6DestinationAddressOffset = ipv6SourceAddressOffset + 16 := rfl
  rw [bmIpTxNew, Option.map_some, heq]
  dsimp only
  rw [← Nat.add_zero ipv6SourceAddressOffset, memcpy_skip hpre 0,
    memcpy_head (hsrc.trans haddr.symm), hoff, memcpy_skip hpre 16, memcpy_skip haddr 0,
    memcpy_head hdst]

section Frame
variable (nodeId : UInt64) {pre : List UInt8} (data : List UInt8)

/-- The data of a frame is behind its addresses. -/
theorem data_of_new (hpre : pre.length = ipv6SourceAddressOffset) :
    srcIp (pre ++ (llAddr nodeId ++ (multicastLlAddr ++ data))) = llAddr nodeId ∧
      dstIp (pre ++ (llAddr nodeId ++ (multicastLlAddr ++ data))) = multicastLlAddr ∧
      (pre ++ (llAddr nodeId ++ (multicastLlAddr ++ data))).drop frameHdrLen = data := by
  have haddr : (llAddr nodeId).length = 16 := by simp [llAddr]
  have hdst : (pre ++ llAddr nodeId).length = ipv6DestinationAddressOffset := by
    rw [List.length_append, hpre, haddr]
    rfl
  refine ⟨?_, ?_, ?_⟩
  · rw [srcIp, List.drop_left' hpre, List.take_left' haddr]
  · rw [← List.append_assoc, dstIp, List.drop_left' hdst]
    rfl
  · rw [← List.append_assoc, ← List.append_assoc]
    exact List.drop_left' (by rw [List.length_append, hdst]; rfl)

theorem bmIpTxCopy_new (hpre : pre.length = ipv6SourceAddressOffset) (bs : List UInt8)
    (size off : Nat) :
    bmIpTxCopy (pre ++ (llAddr nodeId ++ (multicastLlAddr ++ data))) bs size off =
      pre ++ (llAddr nodeId ++ (multicastLlAddr ++ memcpy data off (bs.take size))) := by
  have haddr : (llAddr nodeId).length = 16 := by simp [llAddr]
  have hmulticast : multicastLlAddr.length = 16 := rfl
  have hoff : frameHdrLen + off = ipv6SourceAddressOffset + (16 + (16 + off)) := by
    simp only [frameHdrLen, ipv6SourceAddressOffset]
    omega
  rw [bmIpTxCopy, hoff, memcpy_skip hpre, memcpy_skip haddr, memcpy_skip hmulticast]

end Frame

theorem setChecksum_setChecksum (data : List UInt8) (c c' : UInt16) :
    setChecksum (setChecksum data c) c' = setChecksum data c' := by
  unfold setChecksum
  rw [List.set_comm _ _ (by omega : 3 ≠ 2), List.set_set, List.set_set]

/-- The checksum of a forwarded message. -/
def forwardChecksum (nodeId : UInt64) (header payload : List UInt8) (size : Nat) : UInt16 :=
  ipv6PseudoChecksum (llAddr nodeId) multicastLlAddr ipProtoBcmp (size + bcmpHeaderSize)
    (setChecksum header 0 ++ payload.take size)

/-- The message that is forwarded: the received one under its new checksum. -/
def forwardData (nodeId : UInt64) (header payload : List UInt8) (size : Nat) : List UInt8 :=
  setChecksum header (forwardChecksum nodeId header payload size) ++ payload.take size

/-- The frame for a port. -/
theorem forward_frame (nodeId : UInt64) (old : Nat → UInt8) {header payload : List UInt8}
    {size : Nat} (hheader : header.length = bcmpHeaderSize) (hpayload : size ≤ payload.length)
    (hsize : frameHdrLen + (size + bcmpHeaderSize) < 2 ^ 32) (egressPort : UInt8) :
    ∃ forward, bmIpTxNew nodeId (some old) multicastLlAddr (size + bcmpHeaderSize) = some forward ∧
      let forward := bmIpTxCopy forward (setChecksum header 0) bcmpHeaderSize 0
      let forward := bmIpTxCopy forward payload size bcmpHeaderSize
      let header' := setChecksum (setChecksum header 0)
        (Network.messageGetChecksum forward (size + bcmpHeaderSize))
      header' = setChecksum header (forwardChecksum nodeId header payload size) ∧
        bmIpTxHeaders nodeId (bmIpTxCopy forward header' bcmpHeaderSize 0)
            (portSpecificDst egressPort) =
          bmIpTxPerform nodeId ⟨llAddr nodeId, portSpecificDst egressPort,
            forwardData nodeId header payload size⟩ (portSpecificDst egressPort) := by
  obtain ⟨pre, data, hpre, hdata, hnew⟩ := bmIpTxNew_eq nodeId old hsize
  obtain ⟨room, rest, rfl, hroom, hrest⟩ :=
    exists_segment (hdata.trans (Nat.add_comm size bcmpHeaderSize))
  have hfirst : (setChecksum header 0).length = bcmpHeaderSize := by
    rw [length_setChecksum, hheader]
  have htake : (payload.take size).length = size := List.length_take_of_le hpayload
  have haddr : (llAddr nodeId).length = 16 := by simp [llAddr]
  refine ⟨_, hnew, ?_⟩
  have hfilled : bmIpTxCopy (bmIpTxCopy (pre ++ (llAddr nodeId ++ (multicastLlAddr ++
      (room ++ rest)))) (setChecksum header 0) bcmpHeaderSize 0) payload size bcmpHeaderSize =
      pre ++ (llAddr nodeId ++ (multicastLlAddr ++
        (setChecksum header 0 ++ payload.take size))) := by
    have hwhole := memcpy_head (c := []) (hrest.trans htake.symm)
    rw [List.append_nil, List.append_nil] at hwhole
    rw [bmIpTxCopy_new nodeId _ hpre, bmIpTxCopy_new nodeId _ hpre,
      List.take_of_length_le hfirst.le, memcpy_head (hroom.trans hfirst.symm),
      ← Nat.add_zero bcmpHeaderSize, memcpy_skip hfirst, hwhole]
  have hchecksum : Network.messageGetChecksum (pre ++ (llAddr nodeId ++ (multicastLlAddr ++
      (setChecksum header 0 ++ payload.take size)))) (size + bcmpHeaderSize) =
      forwardChecksum nodeId header payload size := by
    obtain ⟨hsrc, hdst, hdrop⟩ :=
      data_of_new nodeId (setChecksum header 0 ++ payload.take size) hpre
    rw [Network.messageGetChecksum, hsrc, hdst, upperData, hdrop, forwardChecksum,
      List.take_of_length_le (by rw [List.length_append, hfirst, htake, Nat.add_comm])]
  have hagain : setChecksum (setChecksum header 0) (forwardChecksum nodeId header payload size) =
      setChecksum header (forwardChecksum nodeId header payload size) :=
    setChecksum_setChecksum header 0 _
  dsimp only
  rw [hfilled, hchecksum, hagain]
  have hsecond : (setChecksum header (forwardChecksum nodeId header payload size)).length =
      bcmpHeaderSize := by
    rw [length_setChecksum, hheader]
  refine ⟨rfl, ?_⟩
  rw [bmIpTxCopy_new nodeId _ hpre, List.take_of_length_le hsecond.le,
    memcpy_head (hfirst.trans hsecond.symm), bmIpTxHeaders_eq nodeId hpre haddr rfl rfl rfl]
  rfl

/-! ## The loop -/

section Run
variable {nodeId : UInt64} {memory : UInt8 → Malloc} {header payload : List UInt8} {size : Nat}

/-- The checksum that the header has had before plays no part. -/
theorem forwardChecksum_congr {header' : List UInt8}
    (h : setChecksum header' 0 = setChecksum header 0) :
    forwardChecksum nodeId header' payload size = forwardChecksum nodeId header payload size := by
  rw [forwardChecksum, forwardChecksum, h]

theorem forwardData_congr {header' : List UInt8}
    (h : setChecksum header' 0 = setChecksum header 0) :
    forwardData nodeId header' payload size = forwardData nodeId header payload size := by
  rw [forwardData, forwardData, forwardChecksum_congr h, ← setChecksum_setChecksum header' 0, h,
    setChecksum_setChecksum]

/-- The frame for a port. -/
def forwardTx (nodeId : UInt64) (header payload : List UInt8) (size port : Nat) : ForwardTx :=
  ⟨.ofNat port, bmIpTxPerform nodeId ⟨llAddr nodeId, portSpecificDst (.ofNat port),
    forwardData nodeId header payload size⟩ (portSpecificDst (.ofNat port))⟩

/-- A round for a port that the message did not come by. -/
theorem llForwardPorts_cons (hmemory : ∀ port, (memory port).isSome)
    (hheader : header.length = bcmpHeaderSize) (hpayload : size ≤ payload.length)
    (hsize : frameHdrLen + (size + bcmpHeaderSize) < 2 ^ 32) (tx : UInt8 → BmErr)
    {ingressPort : UInt8} {port : Nat} (hport : UInt8.ofNat port ≠ ingressPort) (ports : List Nat)
    {s : LlForward} (hs : setChecksum s.header 0 = setChecksum header 0) :
    ∃ header', setChecksum header' 0 = setChecksum header 0 ∧
      llForwardPorts nodeId memory tx payload size ingressPort (port :: ports) s =
        llForwardPorts nodeId memory tx payload size ingressPort ports
          ⟨header', s.sent ++ [forwardTx nodeId header payload size port],
            if tx (.ofNat port) ≠ .ok then (if s.err ≠ .ok then tx (.ofNat port) else s.err)
            else .ok⟩ := by
  obtain ⟨old, hold⟩ := Option.isSome_iff_exists.mp (hmemory (.ofNat port))
  have hmod : (size + bcmpHeaderSize) % 2 ^ 32 = size + bcmpHeaderSize :=
    Nat.mod_eq_of_lt (by omega)
  have hlength : s.header.length = bcmpHeaderSize := by
    rw [← length_setChecksum s.header 0, hs, length_setChecksum, hheader]
  obtain ⟨forward, hnew, hchecksum, hframe⟩ :=
    forward_frame nodeId old hlength hpayload hsize (.ofNat port)
  refine ⟨setChecksum s.header (forwardChecksum nodeId s.header payload size), ?_, ?_⟩
  · rw [setChecksum_setChecksum, hs]
  · rw [llForwardPorts]
    dsimp only
    rw [if_neg hport, hold, hmod, hnew]
    dsimp only
    rw [hframe, hchecksum, forwardData_congr hs]
    rfl

variable (nodeId) in
theorem llForwardPorts_run (hmemory : ∀ port, (memory port).isSome)
    (hheader : header.length = bcmpHeaderSize) (hpayload : size ≤ payload.length)
    (hsize : frameHdrLen + (size + bcmpHeaderSize) < 2 ^ 32) (tx : UInt8 → BmErr)
    (ingressPort : UInt8) (ports : List Nat) (s : LlForward)
    (hs : setChecksum s.header 0 = setChecksum header 0) :
    let r := llForwardPorts nodeId memory tx payload size ingressPort ports s
    let out := ports.filter fun port => UInt8.ofNat port != ingressPort
    r.sent = s.sent ++ out.map (forwardTx nodeId header payload size) ∧
      (r.err = .ok ↔ s.err = .ok ∨ ∃ port ∈ out, tx (.ofNat port) = .ok) := by
  induction ports generalizing s with
  | nil => simp [llForwardPorts]
  | cons port ports ih =>
    by_cases hport : UInt8.ofNat port = ingressPort
    · have hskip : llForwardPorts nodeId memory tx payload size ingressPort (port :: ports) s =
          llForwardPorts nodeId memory tx payload size ingressPort ports s := by
        rw [llForwardPorts]
        exact if_pos hport
      simpa [hskip, hport] using ih s hs
    · obtain ⟨header', hheader', hround⟩ := llForwardPorts_cons hmemory hheader hpayload hsize tx
        hport ports hs
      obtain ⟨hsent, herr⟩ := ih ⟨header', s.sent ++ [forwardTx nodeId header payload size port],
        if tx (.ofNat port) ≠ .ok then (if s.err ≠ .ok then tx (.ofNat port) else s.err)
        else .ok⟩ hheader'
      rw [hround]
      refine ⟨by simpa [hport] using hsent, herr.trans ?_⟩
      by_cases htx : tx (.ofNat port) = .ok
      · simp [htx, hport]
      · by_cases hok : s.err = .ok
        · simp [htx, hok]
        · simp [htx, hok, hport]

end Run

/-! ## The frames -/

theorem setChecksum_append {header : List UInt8} (h : header.length = bcmpHeaderSize)
    (payload : List UInt8) (c : UInt16) :
    setChecksum (header ++ payload) c = setChecksum header c ++ payload := by
  unfold setChecksum
  rw [List.set_append_left _ _ (by rw [h]; decide), List.set_append_left _ _ (by
    rw [List.length_set, h]
    decide)]

/-- A packet in its frame. -/
structure Framed (nodeId : UInt64) (data frame : List UInt8) : Prop where
  src : srcIp frame = llAddr nodeId
  dst : dstIp frame = multicastLlAddr
  data : frame.drop frameHdrLen = data
  clean : received frame = frame

theorem framed_output (nodeId : UInt64) (dst data : List UInt8) (egressPort : UInt8) :
    Framed nodeId data ((bmIpTxPerform nodeId ⟨llAddr nodeId, dst, data⟩
      (portSpecificDst egressPort)).set egressIdx 0) := by
  rw [output_eq rfl]
  obtain ⟨pre, hlength, hpre⟩ : ∃ pre : List UInt8, pre.length = ipv6SourceAddressOffset ∧
      framePrefix nodeId data.length egressPort = pre ++ llAddr nodeId := ⟨_, by
    simp [macFromNodeid, ipv6SourceAddressOffset], rfl⟩
  have hclean : received (framePrefix nodeId data.length egressPort ++ (multicastLlAddr ++ data)) =
      framePrefix nodeId data.length egressPort ++ (multicastLlAddr ++ data) := by
    generalize hframe : framePrefix nodeId data.length egressPort ++ (multicastLlAddr ++ data) =
      frame
    have hports : byte frame ipv6IngressEgressPortsOffset = 0 := by
      rw [← hframe]
      rfl
    have hlegacy : byte frame (ipv6SourceAddressOffset + 4) = 0 ∧
        byte frame (ipv6SourceAddressOffset + 5) = 0 := by
      rw [← hframe]
      exact ⟨rfl, rfl⟩
    have hkept : clearPortsLegacy frame = frame := by
      have hfirst := set_byte_self frame (ipv6SourceAddressOffset + 4)
      have hsecond := set_byte_self frame (ipv6SourceAddressOffset + 5)
      rw [hlegacy.1] at hfirst
      rw [hlegacy.2] at hsecond
      rw [clearPortsLegacy, hfirst, hsecond]
    have hself := set_byte_self frame ipv6IngressEgressPortsOffset
    rw [hports] at hself
    rw [received, hkept, clearIngressPort, setPortsByte, portsByte, hports]
    exact hself
  obtain ⟨hsrc, hdst, hdrop⟩ := data_of_new nodeId data hlength
  rw [← List.append_assoc, ← hpre] at hsrc hdst hdrop
  exact ⟨hsrc, hdst, hdrop, hclean⟩

/-- The receiver computes the checksum that it finds. -/
theorem Framed.verifies {nodeId : UInt64} {header payload frame : List UInt8} {size : Nat}
    (hheader : header.length = bcmpHeaderSize) (hpayload : size ≤ payload.length)
    (h : Framed nodeId (forwardData nodeId header payload size) frame) :
    (Network.processReceivedMessage frame size).isSome = true := by
  have hdata : frame.drop frameHdrLen = setUint16 (header ++ payload.take size) 2
      (forwardChecksum nodeId header payload size) := by
    rw [h.data, forwardData, ← setChecksum_append hheader]
    rfl
  have hread : getUint16 frame bcmpChecksumOffset = forwardChecksum nodeId header payload size := by
    have hbyte : ∀ k, byte frame (frameHdrLen + k) = byte (frame.drop frameHdrLen) k := fun k => by
      simp [byte, List.getD_eq_getElem?_getD, List.getElem?_drop]
    have hfield : getUint16 frame bcmpChecksumOffset = getUint16 (frame.drop frameHdrLen) 2 := by
      rw [getUint16, getUint16, ← hbyte, ← hbyte]
      rfl
    rw [hfield, hdata]
    exact getUint16_setUint16 (by rw [List.length_append, hheader, bcmpHeaderSize]; omega) _
  have hzeroed : Network.messageGetChecksum (setUint16 frame bcmpChecksumOffset 0)
      (size + bcmpHeaderSize) = forwardChecksum nodeId header payload size := by
    have hdrop : (setUint16 frame bcmpChecksumOffset 0).drop frameHdrLen =
        setChecksum header 0 ++ payload.take size := by
      have hset : (setUint16 frame bcmpChecksumOffset 0).drop frameHdrLen =
          setUint16 (frame.drop frameHdrLen) 2 0 := by
        simp only [setUint16, List.drop_set]
        rfl
      rw [hset, hdata, setUint16_setUint16, ← setChecksum_append hheader]
      rfl
    have hlength : (setChecksum header 0 ++ payload.take size).length ≤ size + bcmpHeaderSize := by
      rw [List.length_append, length_setChecksum, hheader, List.length_take_of_le hpayload,
        Nat.add_comm]
    rw [Network.messageGetChecksum, upperData, hdrop, List.take_of_length_le hlength, setUint16,
      srcIp_set_of_ge (by decide), srcIp_set_of_ge (by decide), dstIp_set_of_ge (by decide),
      dstIp_set_of_ge (by decide), h.src, h.dst]
    rfl
  have hclean : clearIngressPort (clearPortsLegacy frame) = frame := h.clean
  unfold Network.processReceivedMessage
  rw [hclean]
  dsimp only
  have hsame : Network.messageGetChecksum (setUint16 frame bcmpChecksumOffset 0)
      (size + Network.bcmpHeaderSize) = getUint16 frame bcmpChecksumOffset :=
    hzeroed.trans hread.symm
  rw [if_neg (not_not_intro hsame)]
  rfl

/-- What the link layer makes of the frame for a port: it goes to that port only, and it has the
received header under a new checksum, which is right. -/
structure ForwardedTo (l2 : BmL2Ctx) (nodeId : UInt64) (header payload : List UInt8) (size : Nat)
    (tx : ForwardTx) : Prop where
  mask : bmL2LinkOutput l2 tx.frame = (tx.frame.set egressIdx 0,
    .ofNat (2 ^ (tx.egressPort.toNat - 1)) &&& l2.enabledPortsMask)
  src : srcIp (bmL2LinkOutput l2 tx.frame).1 = llAddr nodeId
  dst : dstIp (bmL2LinkOutput l2 tx.frame).1 = multicastLlAddr
  message : ∃ checksum, (bmL2LinkOutput l2 tx.frame).1.drop frameHdrLen =
    setChecksum header checksum ++ payload.take size
  type : headerType ((bmL2LinkOutput l2 tx.frame).1.drop frameHdrLen) = headerType header
  seqNum : headerSeqNum ((bmL2LinkOutput l2 tx.frame).1.drop frameHdrLen) = headerSeqNum header
  verifies : (Network.processReceivedMessage (bmL2LinkOutput l2 tx.frame).1 size).isSome = true

theorem forwardTx_forwardedTo (l2 : BmL2Ctx) (nodeId : UInt64) {header payload : List UInt8}
    {size : Nat} (hheader : header.length = bcmpHeaderSize) (hpayload : size ≤ payload.length)
    {port : Nat} (hport : 1 ≤ port ∧ port ≤ l2.numPorts.toNat) :
    ForwardedTo l2 nodeId header payload size (forwardTx nodeId header payload size port) := by
  have hnum : (UInt8.ofNat port).toNat = port := by
    have hlt := l2.numPorts.toNat_lt
    rw [UInt8.toNat_ofNat']
    omega
  have hmask : bmL2LinkOutput l2 (forwardTx nodeId header payload size port).frame =
      ((forwardTx nodeId header payload size port).frame.set egressIdx 0,
        .ofNat (2 ^ ((UInt8.ofNat port).toNat - 1)) &&& l2.enabledPortsMask) := by
    have hegress : byte (forwardTx nodeId header payload size port).frame egressIdx = .ofNat port :=
      byte_output rfl
    have hnamed : 0 < UInt8.ofNat port ∧ UInt8.ofNat port ≤ l2.numPorts := by
      rw [UInt8.lt_iff_toNat_lt, UInt8.le_iff_toNat_le, hnum]
      exact hport
    rw [bmL2LinkOutput, hegress, linkOutputMask, if_pos hnamed, bmL2Tx]
  have hframed : Framed nodeId (forwardData nodeId header payload size)
      (bmL2LinkOutput l2 (forwardTx nodeId header payload size port).frame).1 := by
    rw [hmask]
    exact framed_output nodeId _ _ _
  have hfields : ∀ off len, off + len ≤ bcmpHeaderSize →
      fieldAt (forwardData nodeId header payload size) off len =
        fieldAt (setChecksum header (forwardChecksum nodeId header payload size)) off len := by
    intro off len hle
    rw [← fieldAt_take _ hle, forwardData, List.take_left' (by rw [length_setChecksum, hheader])]
  refine ⟨hmask, hframed.src, hframed.dst, ⟨_, hframed.data⟩, ?_, ?_, ?_⟩
  · rw [hframed.data, headerType, hfields _ _ (by decide)]
    exact headerType_setChecksum header _
  · rw [hframed.data, headerSeqNum, hfields _ _ (by decide)]
    exact headerSeqNum_setChecksum header _
  · exact hframed.verifies hheader hpayload

/-- The loop comes to every port of the device once. -/
theorem count_forwarded {numPorts : UInt8} (h : numPorts.toNat ≤ 15) (ingressPort port : UInt8) :
    ((((List.range numPorts.toNat).map (· + 1)).filter fun port =>
        UInt8.ofNat port != ingressPort).map UInt8.ofNat).count port =
      if 1 ≤ port.toNat ∧ port ≤ numPorts ∧ port ≠ ingressPort then 1 else 0 := by
  have hnum : ∀ i < numPorts.toNat, (UInt8.ofNat (i + 1)).toNat = i + 1 := by
    intro i hi
    rw [UInt8.toNat_ofNat']
    omega
  have hnodup : ((((List.range numPorts.toNat).map (· + 1)).filter fun port =>
      UInt8.ofNat port != ingressPort).map UInt8.ofNat).Nodup := by
    refine List.Nodup.map_on ?_ ((List.nodup_range.map fun i j hij => by omega).filter _)
    intro x hx y hy hxy
    obtain ⟨i, hi, rfl⟩ := List.mem_map.mp (List.mem_filter.mp hx).1
    obtain ⟨j, hj, rfl⟩ := List.mem_map.mp (List.mem_filter.mp hy).1
    rw [← hnum i (List.mem_range.mp hi), ← hnum j (List.mem_range.mp hj), hxy]
  rw [List.Nodup.count hnodup]
  refine if_congr ⟨fun hmem => ?_, fun ⟨hpos, hle, hne⟩ => ?_⟩ rfl rfl
  · obtain ⟨x, hx, rfl⟩ := List.mem_map.mp hmem
    obtain ⟨hrange, hne⟩ := List.mem_filter.mp hx
    obtain ⟨i, hi, rfl⟩ := List.mem_map.mp hrange
    rw [UInt8.le_iff_toNat_le, hnum i (List.mem_range.mp hi)]
    exact ⟨Nat.succ_pos i, List.mem_range.mp hi, by simpa using hne⟩
  · rw [UInt8.le_iff_toNat_le] at hle
    have hself : UInt8.ofNat port.toNat = port := UInt8.ofNat_toNat
    refine List.mem_map.mpr ⟨port.toNat, List.mem_filter.mpr ⟨List.mem_map.mpr
      ⟨port.toNat - 1, List.mem_range.mpr (by omega), by omega⟩, ?_⟩, hself⟩
    simpa [hself] using hne

/-- `bcmp_ll_forward` sends one frame to every port but the one the message came by, each with the
message under a checksum that verifies. It succeeds if one of them is sent. -/
theorem ll_forward_fan_out (nodeId : UInt64) (memory : UInt8 → Malloc)
    (hmemory : ∀ port, (memory port).isSome) (tx : UInt8 → BmErr) (header payload : List UInt8)
    (size : Nat) (hheader : header.length = bcmpHeaderSize) (hpayload : size ≤ payload.length)
    (hsize : frameHdrLen + (size + bcmpHeaderSize) < 2 ^ 32) (ingressPort : UInt8) (l2 : BmL2Ctx)
    (hports : l2.numPorts.toNat ≤ 15) :
    let r := llForward nodeId memory tx payload size ingressPort l2.numPorts header
    (∀ port : UInt8, (r.sent.map (·.egressPort)).count port =
        if 1 ≤ port.toNat ∧ port ≤ l2.numPorts ∧ port ≠ ingressPort then 1 else 0) ∧
      (∀ sent ∈ r.sent, ForwardedTo l2 nodeId header payload size sent) ∧
      (r.err = .ok ↔ ∃ sent ∈ r.sent, tx sent.egressPort = .ok) := by
  intro r
  obtain ⟨hsent, herr⟩ := llForwardPorts_run nodeId hmemory hheader hpayload hsize tx
    ingressPort ((List.range l2.numPorts.toNat).map (· + 1)) { header } rfl
  have hr : r.sent = (((List.range l2.numPorts.toNat).map (· + 1)).filter fun port =>
      UInt8.ofNat port != ingressPort).map (forwardTx nodeId header payload size) := hsent
  refine ⟨fun port => ?_, fun sent hmem => ?_, ?_⟩
  · rw [hr, List.map_map]
    exact count_forwarded hports ingressPort port
  · rw [hr] at hmem
    obtain ⟨port, hport, rfl⟩ := List.mem_map.mp hmem
    obtain ⟨i, hi, rfl⟩ := List.mem_map.mp (List.mem_filter.mp hport).1
    exact forwardTx_forwardedTo l2 nodeId hheader hpayload
      ⟨Nat.succ_pos i, List.mem_range.mp hi⟩
  · rw [hr]
    exact herr.trans (by simp [forwardTx])

/-- A message that came by port 1 of a node with two ports. -/
theorem ll_forward_fan_out_two : ((llForward 7 (fun _ => some fun _ => 0xCC) (fun _ => .ok) [1, 2] 2
    1 2 (List.replicate 13 0)).sent.map (·.egressPort)).count 2 = 1 :=
  (ll_forward_fan_out 7 (fun _ => some fun _ => 0xCC) (fun _ => rfl) (fun _ => .ok)
    (List.replicate 13 0) [1, 2] 2 rfl (by decide) (by decide) 1
    { numPorts := 2, allPortsMask := 3, enabledPortsMask := 3 } (by decide)).1 2

/-- The frames are those of `bcmpLlForward`. -/
theorem llForward_frames (nodeId : UInt64) {memory : UInt8 → Malloc}
    (hmemory : ∀ port, (memory port).isSome) (tx : UInt8 → BmErr) (numPorts : UInt8)
    {data : BcmpProcessData} (hheader : data.header.length = bcmpHeaderSize)
    (hpayload : data.size ≤ data.payload.length)
    (hsize : frameHdrLen + (data.size + bcmpHeaderSize) < 2 ^ 32) :
    (llForward nodeId memory tx data.payload data.size data.ingressPort numPorts
      data.header).sent.map (·.frame) =
      bcmpLlForward nodeId numPorts messageGetChecksum data := by
  obtain ⟨hsent, -⟩ := llForwardPorts_run nodeId hmemory hheader hpayload hsize tx
    data.ingressPort ((List.range numPorts.toNat).map (· + 1)) { header := data.header } rfl
  have hchecksum : messageGetChecksum ⟨llAddr nodeId, multicastLlAddr,
      setChecksum data.header 0 ++ data.payload.take data.size⟩
        ((data.size + bcmpHeaderSize) % 2 ^ 32) =
      forwardChecksum nodeId data.header data.payload data.size := by
    rw [Nat.mod_eq_of_lt (by omega)]
    rfl
  have hpacket : (forwardPacket messageGetChecksum (llAddr nodeId) data).data =
      forwardData nodeId data.header data.payload data.size := by
    rw [forwardPacket, hchecksum, setChecksum_append (by rw [length_setChecksum, hheader]),
      setChecksum_setChecksum]
    rfl
  rw [llForward, hsent, List.nil_append, List.filter_map, List.map_map, List.map_map,
    bcmpLlForward]
  refine List.map_congr_left fun i _ => ?_
  simp only [Function.comp_apply, forwardTx, ← hpacket]
  rfl

end BmCore.Bcmp
