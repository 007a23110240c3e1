import BmCore.Network.Policy
import Mathlib.Data.List.Induction
import Mathlib.Data.List.Nodup

/-!
# Transmission port by port

The way of a frame out of a node: `bm_l2_link_output` forms its port mask, `bm_l2_tx` takes the
ports off whose link is down, and `bm_l2_process_tx_evt` works the mask off. One buffer serves all
ports of a link-local frame, with the port stamped into it and taken out again in between; a global
frame for every port is handed over once. -/
namespace BmCore.Network

/-! ## One buffer for all ports -/

/-- The loop of `bm_l2_process_tx_evt`: what is sent, and the buffer that it leaves. -/
def txPorts (ctx : BmL2Ctx) (payload : List UInt8) (portMask : UInt16) : List Sent × List UInt8 :=
  (List.range ctx.numPorts.toNat).foldl (txPort portMask) ([], payload)

section Buffer
variable {ctx : BmL2Ctx} {frame : List UInt8}

theorem mem_selected {portMask : UInt16} {portIdx : Nat} :
    portIdx ∈ selected ctx portMask ↔
      portIdx < ctx.numPorts.toNat ∧ hasPort portMask portIdx = true := by
  simp [selected]

theorem selected_nodup (ctx : BmL2Ctx) (portMask : UInt16) : (selected ctx portMask).Nodup :=
  List.nodup_range.filter _

/-- The mask of one port of the device. -/
theorem selected_single {portIdx : Nat} (h : portIdx < ctx.numPorts.toNat) (hlt : portIdx < 16) :
    selected ctx (.ofNat (2 ^ portIdx)) = [portIdx] := by
  have hnodup := selected_nodup ctx (.ofNat (2 ^ portIdx))
  refine List.perm_singleton.mp ((List.perm_ext_iff_of_nodup hnodup (by simp)).mpr fun i => ?_)
  rw [mem_selected, hasPort_single hlt, List.mem_singleton, decide_eq_true_eq]
  constructor
  · exact fun hi => hi.2.symm
  · rintro rfl
    exact ⟨h, rfl⟩

/-- Different ports have different numbers. -/
theorem portNum_inj {i j : Nat} (hi : i < ctx.numPorts.toNat) (hj : j < ctx.numPorts.toNat) :
    (UInt8.ofNat (i + 1) = UInt8.ofNat (j + 1)) ↔ i = j := by
  have hn := ctx.numPorts.toNat_lt
  rw [← UInt8.toNat_inj, UInt8.toNat_ofNat', UInt8.toNat_ofNat']
  omega

theorem filter_port {is : List Nat} (his : ∀ i ∈ is, i < ctx.numPorts.toNat) (hnodup : is.Nodup)
    {j : Nat} (hj : j ∈ is) (f : Nat → List UInt8) :
    (is.map fun i => (UInt8.ofNat (i + 1), f i)).filter (·.1 == UInt8.ofNat (j + 1)) =
      [(UInt8.ofNat (j + 1), f j)] := by
  have hport : ∀ i ∈ is, ((UInt8.ofNat (i + 1) == UInt8.ofNat (j + 1)) = true ↔ i = j) := by
    intro i hi
    rw [beq_iff_eq, portNum_inj (his i hi) (his j hj)]
  rw [List.filter_map, Function.comp_def]
  have hfilter : is.filter (fun i => UInt8.ofNat (i + 1) == UInt8.ofNat (j + 1)) =
      is.filter (· = j) :=
    List.filter_congr fun i hi => by rw [Bool.eq_iff_iff, hport i hi, decide_eq_true_eq]
  rw [hfilter, List.filter_eq, List.count_eq_one_of_mem hnodup hj]
  rfl

/-- A link-local frame leaves by each port of a mask as if this port were the only one, and the
buffer is in the end as it was: for any checksum, taking a port out undoes stamping it in. -/
theorem tx_ports_independent (ctx : BmL2Ctx) (frame : List UInt8)
    (hdst : isLinkLocalMulticast (dstIp frame) = true) (hcovers : CoversChecksum frame)
    (hports : portsByte frame = 0) (portMask : UInt16) :
    (bmL2ProcessTxEvt ctx frame portMask).map (·.1) =
        (selected ctx portMask).map (fun portIdx => UInt8.ofNat (portIdx + 1)) ∧
      (∀ portIdx ∈ selected ctx portMask,
        (bmL2ProcessTxEvt ctx frame portMask).filter (·.1 == UInt8.ofNat (portIdx + 1)) =
          bmL2ProcessTxEvt ctx frame (.ofNat (2 ^ portIdx))) ∧
      (txPorts ctx frame portMask).2 = frame ∧
      ∀ portNum, networkRevertChecksum (clearPorts (networkAddEgressPort frame portNum)) portNum =
        frame := by
  have hsent := bmL2ProcessTxEvt_of_covers ctx hdst hcovers hports
  have hrevert := revert_stamp hcovers hports
  refine ⟨?_, fun portIdx hmem => ?_, ?_, hrevert⟩
  · rw [hsent, List.map_map]
    rfl
  · obtain ⟨hlt, hbit⟩ := mem_selected.mp hmem
    rw [hsent, hsent, selected_single hlt (hasPort_lt hbit)]
    exact filter_port (fun i hi => (mem_selected.mp hi).1) (selected_nodup ctx portMask) hmem _
  · rw [txPorts, foldl_txPort hrevert]

theorem tx_ports_independent_emptyMessage :
    (txPorts ⟨15, 0x7FFF, 0x7FFF⟩ (emptyMessage 1 0 0 0xAB) 0x7FFF).2 = emptyMessage 1 0 0 0xAB :=
  (tx_ports_independent ⟨15, 0x7FFF, 0x7FFF⟩ (emptyMessage 1 0 0 0xAB) (by decide +kernel)
    ⟨by decide +kernel, fun h => absurd h.next (by decide +kernel), fun _ => by decide +kernel⟩
    (by decide +kernel) 0x7FFF).2.2.1

end Buffer

/-! ## Links -/

/-- `bm_l2_init` -/
def bmL2Init (numPorts : UInt8) : BmL2Ctx where
  numPorts := numPorts
  allPortsMask := .ofNat (2 ^ numPorts.toNat - 1)
  enabledPortsMask := 0

/-- `link_change`, with the index of the port and whether its link is up. -/
def linkChange (ctx : BmL2Ctx) (event : UInt8 × Bool) : BmL2Ctx :=
  let portMask : UInt16 := .ofNat (2 ^ event.1.toNat)
  if event.2 then { ctx with enabledPortsMask := ctx.enabledPortsMask ||| portMask }
  else { ctx with enabledPortsMask := ctx.enabledPortsMask &&& ~~~ portMask }

/-- The link of a port is up: so said the latest event of this port. -/
def linkUp (history : List (UInt8 × Bool)) (portIdx : Nat) : Bool :=
  (history.reverse.find? fun event => event.1.toNat == portIdx).any (·.2)

section Links
variable {ctx : BmL2Ctx} {history : List (UInt8 × Bool)} {portIdx : Nat}

theorem hasPort_linkMask {k : Nat} (h : portIdx < 16) :
    hasPort (.ofNat (2 ^ k)) portIdx = decide (k = portIdx) := by
  by_cases hk : k < 16
  · exact hasPort_single hk
  · -- the shifted bit has fallen out of the mask
    have hzero : UInt16.ofNat (2 ^ k) = 0 := by
      rw [← UInt16.toNat_inj, UInt16.toNat_ofNat']
      exact Nat.mod_eq_zero_of_dvd (Nat.pow_dvd_pow 2 (by omega))
    have hne : ¬ k = portIdx := by omega
    rw [hzero, decide_eq_false hne]
    exact Nat.zero_testBit portIdx

theorem hasPort_linkChange (ctx : BmL2Ctx) (event : UInt8 × Bool) (h : portIdx < 16) :
    hasPort (linkChange ctx event).enabledPortsMask portIdx =
      if event.1.toNat = portIdx then event.2 else hasPort ctx.enabledPortsMask portIdx := by
  obtain ⟨idx, isUp⟩ := event
  cases isUp with
  | true =>
    simp only [linkChange, if_true]
    rw [hasPort_or, hasPort_linkMask h]
    split <;> simp_all
  | false =>
    simp only [linkChange, Bool.false_eq_true, if_false]
    rw [hasPort_and, hasPort_not h, hasPort_linkMask h]
    split <;> simp_all

theorem linkUp_concat (history : List (UInt8 × Bool)) (event : UInt8 × Bool) (portIdx : Nat) :
    linkUp (history ++ [event]) portIdx =
      if event.1.toNat = portIdx then event.2 else linkUp history portIdx := by
  simp only [linkUp, List.reverse_append, List.reverse_singleton, List.singleton_append,
    List.find?_cons]
  split <;> simp_all

/-- The mask of the enabled ports tells the links that are up. -/
theorem hasPort_enabled (numPorts : UInt8) (history : List (UInt8 × Bool)) (h : portIdx < 16) :
    hasPort (history.foldl linkChange (bmL2Init numPorts)).enabledPortsMask portIdx =
    linkUp history portIdx := by
  induction history using List.reverseRecOn with
  | nil => exact Nat.zero_testBit portIdx
  | append_singleton history event ih =>
    rw [List.foldl_append, List.foldl_cons, List.foldl_nil, hasPort_linkChange _ _ h,
      linkUp_concat, ih]

/-- The device itself stays as it is. -/
theorem foldl_linkChange (history : List (UInt8 × Bool)) (ctx : BmL2Ctx) :
    (history.foldl linkChange ctx).numPorts = ctx.numPorts ∧
      (history.foldl linkChange ctx).allPortsMask = ctx.allPortsMask := by
  have hstep : ∀ (ctx : BmL2Ctx) (event : UInt8 × Bool),
    (linkChange ctx event).numPorts = ctx.numPorts ∧
      (linkChange ctx event).allPortsMask = ctx.allPortsMask := by
    intro ctx event
    unfold linkChange
    dsimp only
    split <;> exact ⟨rfl, rfl⟩
  induction history generalizing ctx with
  | nil => exact ⟨rfl, rfl⟩
  | cons event history ih =>
    obtain ⟨hports, hall⟩ := ih (linkChange ctx event)
    exact ⟨hports.trans (hstep ctx event).1, hall.trans (hstep ctx event).2⟩

end Links

/-! ## The ports of a frame -/

/-- The ports that a call of the device puts a frame on; port 0 is every port. -/
def portsOf (ctx : BmL2Ctx) (sent : Sent) : List Nat :=
  if sent.1 = 0 then (List.range ctx.numPorts.toNat).map (· + 1) else [sent.1.toNat]

/-- The ports that an egress byte asks for: the port it names, or every port. -/
def Requested (numPorts : Nat) (egress : UInt8) (port : Nat) : Prop :=
  1 ≤ port ∧ port ≤ numPorts ∧ (1 ≤ egress.toNat → egress.toNat ≤ numPorts → port = egress.toNat)

instance (numPorts : Nat) (egress : UInt8) (port : Nat) :
    Decidable (Requested numPorts egress port) :=
  inferInstanceAs (Decidable (_ ∧ _ ∧ (_ → _ → _)))

section Ports
variable {ctx : BmL2Ctx} {frame : List UInt8} {portMask : UInt16}

/-- Frames that leave port by port. -/
theorem flatMap_portsOf {is : List Nat} (his : ∀ i ∈ is, i < 15) (f : Nat → List UInt8) :
    (is.map fun i => (UInt8.ofNat (i + 1), f i)).flatMap (portsOf ctx) = is.map (· + 1) := by
  induction is with
  | nil => rfl
  | cons i is ih =>
    have hi := his i List.mem_cons_self
    have hnum : (UInt8.ofNat (i + 1)).toNat = i + 1 := by
      rw [UInt8.toNat_ofNat']
      omega
    have hne : UInt8.ofNat (i + 1) ≠ 0 := by
      intro hzero
      rw [hzero] at hnum
      cases hnum
    rw [List.map_cons, List.flatMap_cons, ih fun j hj => his j (List.mem_cons_of_mem i hj), portsOf,
      if_neg hne, hnum]
    rfl

theorem selected_lt (h : ctx.numPorts.toNat ≤ 15) : ∀ i ∈ selected ctx portMask, i < 15 := by
  intro i hi
  have hlt := (mem_selected.mp hi).1
  omega

/-- The call for every port covers the ports of the loop. -/
theorem sendGlobalMulticastPacket_ports (h : ctx.numPorts.toNat ≤ 15)
    (hall : ctx.allPortsMask = portsMask ctx.numPorts.toNat) (payload : List UInt8)
    (portMask : UInt16) :
    (sendGlobalMulticastPacket ctx payload portMask).flatMap (portsOf ctx) =
      (selected ctx portMask).map (· + 1) := by
  unfold sendGlobalMulticastPacket
  split
  next hmask =>
    have hevery : selected ctx portMask = List.range ctx.numPorts.toNat := by
      refine List.filter_eq_self.mpr fun i hi => ?_
      rw [hmask, hall, hasPort_portsMask h]
      simpa using hi
    rw [hevery]
    simp [portsOf]
  · exact flatMap_portsOf (selected_lt h) _

/-- The ports a link-local frame leaves by. -/
theorem foldl_txPort_ports (idxs : List Nat) (s : List Sent × List UInt8) :
    (idxs.foldl (txPort portMask) s).1.map (·.1) =
      s.1.map (·.1) ++ (idxs.filter (hasPort portMask)).map fun i => UInt8.ofNat (i + 1) := by
  induction idxs generalizing s with
  | nil => simp
  | cons idx idxs ih =>
    rw [List.foldl_cons, ih]
    cases hbit : hasPort portMask idx <;> simp [txPort, hbit]

theorem bmL2ProcessTxEvt_ports (h : ctx.numPorts.toNat ≤ 15)
    (hall : ctx.allPortsMask = portsMask ctx.numPorts.toNat)
    (hdst : isGlobalMulticast (dstIp frame) = true ∨ isLinkLocalMulticast (dstIp frame) = true) :
    (bmL2ProcessTxEvt ctx frame portMask).flatMap (portsOf ctx) =
      (selected ctx portMask).map (· + 1) := by
  unfold bmL2ProcessTxEvt
  split
  · exact sendGlobalMulticastPacket_ports h hall frame portMask
  next hglobal =>
    rw [if_pos (hdst.resolve_left hglobal)]
    have hports : ((List.range ctx.numPorts.toNat).foldl (txPort portMask) ([], frame)).1.map
        (·.1) = _ :=
      foldl_txPort_ports (List.range ctx.numPorts.toNat) ([], frame)
    have hsame (sents : List Sent) : sents.flatMap (portsOf ctx) =
        ((sents.map (·.1)).map fun port => (port, [])).flatMap (portsOf ctx) := by
      rw [List.map_map, List.flatMap_map]
      rfl
    rw [hsame, hports, List.map_nil, List.nil_append, List.map_map]
    exact flatMap_portsOf (selected_lt h) fun _ => []

end Ports

/-! ## The bytes that are kept -/

section Bytes
variable {frame : List UInt8} {i : Nat}

/-- Stamping writes the ports byte and the checksum only. -/
structure Untouched (i : Nat) : Prop where
  ports : ipv6IngressEgressPortsOffset ≠ i
  udp : udpChecksumOffset ≠ i
  bcmp : bcmpChecksumOffset ≠ i
  bcmp' : bcmpChecksumOffset + 1 ≠ i

/-- A byte of the checksum that stamping updates in a frame. -/
def ChecksumByte (frame : List UInt8) (i : Nat) : Prop :=
  (Carries ipProtoUdp frame ∧ i = udpChecksumOffset) ∨
    (Carries ipProtoBcmp frame ∧ (i = bcmpChecksumOffset ∨ i = bcmpChecksumOffset + 1))

theorem Untouched.not_checksumByte (h : Untouched i) : ¬ ChecksumByte frame i := by
  rintro (⟨-, hudp⟩ | ⟨-, hbcmp | hbcmp⟩)
  · exact h.udp hudp.symm
  · exact h.bcmp hbcmp.symm
  · exact h.bcmp' hbcmp.symm

theorem byte_updateChecksum (h : ¬ ChecksumByte frame i) (udp : UInt8 → UInt8)
    (bcmp : UInt16 → UInt16) : byte (updateChecksum udp bcmp frame) i = byte frame i := by
  by_cases hudp : Carries ipProtoUdp frame
  · rw [hudp.updateChecksum_udp]
    exact byte_set_ne fun hi => h (.inl ⟨hudp, hi.symm⟩)
  by_cases hbcmp : Carries ipProtoBcmp frame
  · have hne : bcmpChecksumOffset ≠ i := fun hi => h (.inr ⟨hbcmp, .inl hi.symm⟩)
    have hne' : bcmpChecksumOffset + 1 ≠ i := fun hi => h (.inr ⟨hbcmp, .inr hi.symm⟩)
    rw [hbcmp.updateChecksum_bcmp, setUint16]
    exact (byte_set_ne hne').trans (byte_set_ne hne)
  · rw [updateChecksum_of_not_carries hudp hbcmp]

theorem updateChecksum_length (udp : UInt8 → UInt8) (bcmp : UInt16 → UInt16)
    (frame : List UInt8) : (updateChecksum udp bcmp frame).length = frame.length := by
  unfold updateChecksum setUint16
  split_ifs <;> simp

theorem byte_networkAddEgressPort (h : Untouched i) (frame : List UInt8) (portNum : UInt8) :
    byte (networkAddEgressPort frame portNum) i = byte frame i :=
  (byte_updateChecksum h.not_checksumByte _ _).trans (byte_set_ne h.ports)

theorem byte_networkRevertChecksum (h : Untouched i) (frame : List UInt8) (portNum : UInt8) :
    byte (networkRevertChecksum (clearPorts frame) portNum) i = byte frame i :=
  (byte_updateChecksum h.not_checksumByte _ _).trans (byte_set_ne h.ports)

/-- What stamping makes hold of a frame, when the buffer is as it was before each round, holds of
every frame that is sent. -/
theorem bmL2ProcessTxEvt_forall_sent {P : List UInt8 → Prop} {R : Sent → Prop}
    (hstamp : ∀ frame q, P frame → R (q, networkAddEgressPort frame q))
    (hrevert : ∀ frame q, P frame →
      P (networkRevertChecksum (clearPorts (networkAddEgressPort frame q)) q))
    (hglobal : isGlobalMulticast (dstIp frame) = true → ∀ q, R (q, frame)) (hframe : P frame)
    (ctx : BmL2Ctx) (portMask : UInt16) : ∀ sent ∈ bmL2ProcessTxEvt ctx frame portMask, R sent := by
  have hloop : ∀ (idxs : List Nat) (s : List Sent × List UInt8), P s.2 → (∀ sent ∈ s.1, R sent) →
      ∀ sent ∈ (idxs.foldl (txPort portMask) s).1, R sent := by
    intro idxs
    induction idxs with
    | nil => exact fun s _ hsent => hsent
    | cons idx idxs ih =>
      intro s hpayload hsent
      rw [List.foldl_cons]
      unfold txPort
      split
      · refine ih _ (hrevert _ _ hpayload) ?_
        intro sent hmem
        rcases List.mem_append.mp hmem with hold | hnew
        · exact hsent sent hold
        · rw [List.mem_singleton.mp hnew]
          exact hstamp _ _ hpayload
      · exact ih s hpayload hsent
  unfold bmL2ProcessTxEvt
  split
  next hdst =>
    unfold sendGlobalMulticastPacket
    intro sent hmem
    split at hmem
    · rw [List.mem_singleton.mp hmem]
      exact hglobal hdst 0
    · obtain ⟨portIdx, -, rfl⟩ := List.mem_map.mp hmem
      exact hglobal hdst _
  · split
    · exact hloop _ _ hframe (by simp)
    · simp

/-- What holds of a frame and is kept by stamping and reverting holds of every frame that is
sent. -/
theorem bmL2ProcessTxEvt_forall {P : List UInt8 → Prop}
    (hstamp : ∀ frame q, P frame → P (networkAddEgressPort frame q))
    (hrevert : ∀ frame q, P frame → P (networkRevertChecksum (clearPorts frame) q))
    (hframe : P frame) (ctx : BmL2Ctx) (portMask : UInt16) :
    ∀ sent ∈ bmL2ProcessTxEvt ctx frame portMask, P sent.2 :=
  bmL2ProcessTxEvt_forall_sent hstamp (fun frame q h => hrevert _ q (hstamp frame q h))
    (fun _ _ => hframe) hframe ctx portMask

/-- A byte that stamping leaves alone is the same in every frame that is sent. -/
theorem bmL2ProcessTxEvt_byte (h : Untouched i) (ctx : BmL2Ctx) (portMask : UInt16) :
    ∀ sent ∈ bmL2ProcessTxEvt ctx frame portMask, byte sent.2 i = byte frame i :=
  bmL2ProcessTxEvt_forall (P := fun sent => byte sent i = byte frame i)
    (fun frame q hbyte => (byte_networkAddEgressPort h frame q).trans hbyte)
    (fun frame q hbyte => (byte_networkRevertChecksum h frame q).trans hbyte) rfl ctx portMask

/-- `sent` is `frame` but for the ports byte and the checksum. -/
structure SameButStamp (frame sent : List UInt8) : Prop where
  length : sent.length = frame.length
  byte : ∀ i, ipv6IngressEgressPortsOffset ≠ i → ¬ ChecksumByte frame i →
    byte sent i = byte frame i

namespace SameButStamp
variable {sent : List UInt8}

theorem setPortsByte (h : SameButStamp frame sent) (v : UInt8) :
    SameButStamp frame (setPortsByte sent v) where
  length := (setPortsByte_length sent v).trans h.length
  byte i hports hchecksum := (byte_set_ne hports).trans (h.byte i hports hchecksum)

/-- The two frames have their checksum in the same bytes. -/
theorem checksumByte_iff (h : SameButStamp frame sent) : ChecksumByte sent i ↔
    ChecksumByte frame i := by
  have hheader : ∀ j < frameHdrLen, ipv6IngressEgressPortsOffset ≠ j →
      Network.byte sent j = Network.byte frame j := by
    intro j hj hports
    refine h.byte j hports ?_
    simp only [frameHdrLen] at hj
    simp only [ChecksumByte, udpChecksumOffset, bcmpChecksumOffset, bcmpPacketOffset]
    omega
  have hcarries (nextHeader : UInt8) : Carries nextHeader sent ↔ Carries nextHeader frame := by
    have htype : ethernetGetType sent = ethernetGetType frame := by
      unfold ethernetGetType uint8ToUint16
      rw [hheader _ (by decide) (by decide), hheader _ (by decide) (by decide)]
    have hnext : ipv6GetNextHeader sent = ipv6GetNextHeader frame :=
      hheader _ (by decide) (by decide)
    exact ⟨fun hc => ⟨htype ▸ hc.type, hnext ▸ hc.next⟩,
      fun hc => ⟨htype.symm ▸ hc.type, hnext.symm ▸ hc.next⟩⟩
  unfold ChecksumByte
  rw [hcarries, hcarries]

theorem updateChecksum (h : SameButStamp frame sent) (udp : UInt8 → UInt8)
    (bcmp : UInt16 → UInt16) : SameButStamp frame (updateChecksum udp bcmp sent) where
  length := (updateChecksum_length udp bcmp sent).trans h.length
  byte i hports hchecksum :=
    (byte_updateChecksum (h.checksumByte_iff.not.mpr hchecksum) udp bcmp).trans
      (h.byte i hports hchecksum)

end SameButStamp

/-- Every buffer that is sent is the frame but for the ports byte and the checksum. -/
theorem bmL2ProcessTxEvt_sameButStamp (ctx : BmL2Ctx) (portMask : UInt16) :
    ∀ sent ∈ bmL2ProcessTxEvt ctx frame portMask, SameButStamp frame sent.2 :=
  bmL2ProcessTxEvt_forall (P := SameButStamp frame)
    (fun _ _ h => (h.setPortsByte _).updateChecksum _ _)
    (fun _ _ h => (h.setPortsByte _).updateChecksum _ _) ⟨rfl, fun _ _ _ => rfl⟩ ctx portMask

/-- A global frame is sent as it is. -/
theorem bmL2ProcessTxEvt_global_same (h : isGlobalMulticast (dstIp frame) = true) (ctx : BmL2Ctx)
    (portMask : UInt16) : ∀ sent ∈ bmL2ProcessTxEvt ctx frame portMask, sent.2 = frame := by
  unfold bmL2ProcessTxEvt sendGlobalMulticastPacket
  rw [if_pos h]
  intro sent hmem
  split at hmem
  · rw [List.mem_singleton.mp hmem]
  · obtain ⟨portIdx, -, rfl⟩ := List.mem_map.mp hmem
    rfl

/-- The checksum is not in the ports byte. -/
theorem portsByte_updateChecksum (udp : UInt8 → UInt8) (bcmp : UInt16 → UInt16)
    (frame : List UInt8) : portsByte (updateChecksum udp bcmp frame) = portsByte frame := by
  refine byte_updateChecksum ?_ udp bcmp
  rintro (⟨-, hudp⟩ | ⟨-, hbcmp | hbcmp⟩)
  · exact absurd hudp (by decide)
  · exact absurd hbcmp (by decide)
  · exact absurd hbcmp (by decide)

/-- A link-local frame without ports carries the number of the port that it leaves by. -/
theorem bmL2ProcessTxEvt_portsByte (hlen : frameHdrLen ≤ frame.length)
    (hdst : isGlobalMulticast (dstIp frame) = false) (hports : portsByte frame = 0) (ctx : BmL2Ctx)
    (portMask : UInt16) :
    ∀ sent ∈ bmL2ProcessTxEvt ctx frame portMask, portsByte sent.2 = sent.1 := by
  refine bmL2ProcessTxEvt_forall_sent
    (P := fun buf => frameHdrLen ≤ buf.length ∧ portsByte buf = 0) ?_ ?_ ?_ ⟨hlen, hports⟩ ctx
    portMask
  · rintro buf q ⟨hbuf, hclear⟩
    rw [networkAddEgressPort, portsByte_updateChecksum, addEgressPort,
      portsByte_setPortsByte _ _ hbuf, hclear, UInt8.zero_or]
  · rintro buf q ⟨hbuf, -⟩
    have hstamped : frameHdrLen ≤ (networkAddEgressPort buf q).length := by
      rw [networkAddEgressPort, updateChecksum_length, addEgressPort, setPortsByte_length]
      exact hbuf
    rw [networkRevertChecksum, updateChecksum_length, portsByte_updateChecksum, clearPorts,
      setPortsByte_length, portsByte_setPortsByte _ _ hstamped]
    exact ⟨hstamped, rfl⟩
  · intro hglobal
    rw [hdst] at hglobal
    cases hglobal

end Bytes

/-! ## From the network stack to the ports -/

section Output
variable {ctx : BmL2Ctx} {frame : List UInt8}

/-- A byte of the destination address. -/
theorem dstIp_set (k : Nat) (v : UInt8) :
    dstIp (frame.set (ipv6DestinationAddressOffset + k) v) = (dstIp frame).set k v := by
  unfold dstIp
  rw [List.drop_set, if_neg (by omega), List.take_set]
  simp

/-- The egress byte plays no part in the kind of a destination. -/
theorem multicast_egress :
    isGlobalMulticast (dstIp (frame.set egressIdx 0)) = isGlobalMulticast (dstIp frame) ∧
      isLinkLocalMulticast (dstIp (frame.set egressIdx 0)) =
        isLinkLocalMulticast (dstIp frame) := by
  have hbyte : ∀ k, 13 ≠ k → byte (dstIp (frame.set egressIdx 0)) k = byte (dstIp frame) k := by
    intro k hk
    rw [egressIdx, dstIp_set, byte_set_ne hk]
  rw [isGlobalMulticast, isLinkLocalMulticast, hbyte 0 (by decide), hbyte 1 (by decide),
    hbyte 15 (by decide)]
  exact ⟨rfl, rfl⟩

/-- The mask of an egress byte. -/
theorem hasPort_linkOutputMask (h : ctx.numPorts.toNat ≤ 15)
    (hall : ctx.allPortsMask = portsMask ctx.numPorts.toNat) (egress : UInt8) {i : Nat}
    (hi : i < ctx.numPorts.toNat) :
    hasPort (linkOutputMask ctx egress) i = true ↔ Requested ctx.numPorts.toNat egress (i + 1) := by
  have hport : 0 < egress ∧ egress ≤ ctx.numPorts ↔
      1 ≤ egress.toNat ∧ egress.toNat ≤ ctx.numPorts.toNat := by
    rw [UInt8.lt_iff_toNat_lt, UInt8.le_iff_toNat_le]
    rfl
  unfold linkOutputMask
  split
  next hnamed =>
    obtain ⟨hpos, hmax⟩ := hport.mp hnamed
    rw [hasPort_single (by omega), decide_eq_true_eq, Requested]
    omega
  next hnone =>
    rw [hport] at hnone
    rw [hall, hasPort_portsMask h, decide_eq_true_eq, Requested]
    omega

theorem count_selected (ctx : BmL2Ctx) (portMask : UInt16) (port : Nat) :
    ((selected ctx portMask).map (· + 1)).count port =
      if 1 ≤ port ∧ port ≤ ctx.numPorts.toNat ∧ hasPort portMask (port - 1) = true then 1
      else 0 := by
  have hnodup : ((selected ctx portMask).map (· + 1)).Nodup :=
    (selected_nodup ctx portMask).map fun i j h => by omega
  have hmem : port ∈ (selected ctx portMask).map (· + 1) ↔
      1 ≤ port ∧ port ≤ ctx.numPorts.toNat ∧ hasPort portMask (port - 1) = true := by
    rw [List.mem_map]
    constructor
    · rintro ⟨i, hi, rfl⟩
      obtain ⟨hlt, hbit⟩ := mem_selected.mp hi
      exact ⟨by omega, hlt, hbit⟩
    · rintro ⟨hpos, hle, hbit⟩
      exact ⟨port - 1, mem_selected.mpr ⟨by omega, hbit⟩, by omega⟩
  rw [List.Nodup.count hnodup]
  simp only [hmem]

/-- A multicast frame of the network stack goes out once by every port that it asks for and whose
link was up when it was queued, and by no other one. What goes out is the frame with its egress byte
cleared: a global frame as it is, a link-local one with the port that it leaves by and the checksum
updated. For a global frame the call for every port stands for the same ports as the loop. -/
theorem link_output_ports (numPorts : UInt8) (hn : 1 ≤ numPorts.toNat ∧ numPorts.toNat ≤ 15)
    (history later : List (UInt8 × Bool)) (frame : List UInt8) (hlen : frameHdrLen ≤ frame.length)
    (hdst : isGlobalMulticast (dstIp frame) = true ∨ isLinkLocalMulticast (dstIp frame) = true) :
    let ctx := history.foldl linkChange (bmL2Init numPorts)
    let ctx' := later.foldl linkChange ctx
    let sent := bmL2ProcessTxEvt ctx' (bmL2LinkOutput ctx frame).1 (bmL2LinkOutput ctx frame).2
    (∀ port, (sent.flatMap (portsOf ctx')).count port =
      if Requested numPorts.toNat (byte frame egressIdx) port ∧
        linkUp history (port - 1) = true then 1 else 0) ∧
      (∀ s ∈ sent, byte s.2 egressIdx = 0 ∧ SameButStamp (frame.set egressIdx 0) s.2) ∧
      (isGlobalMulticast (dstIp frame) = true → ∀ s ∈ sent, s.2 = frame.set egressIdx 0) ∧
      (isLinkLocalMulticast (dstIp frame) = true → portsByte frame = 0 →
        ∀ s ∈ sent, portsByte s.2 = s.1) ∧
      ∀ payload portMask, (sendGlobalMulticastPacket ctx' payload portMask).flatMap (portsOf ctx') =
        (((List.range numPorts.toNat).filter (hasPort portMask)).map fun portIdx =>
          (UInt8.ofNat (portIdx + 1), payload)).flatMap (portsOf ctx') := by
  intro ctx ctx' sent
  have hctx : ctx.numPorts = numPorts ∧ ctx.allPortsMask = portsMask numPorts.toNat :=
    foldl_linkChange history (bmL2Init numPorts)
  have hctx' : ctx'.numPorts = numPorts ∧ ctx'.allPortsMask = portsMask numPorts.toNat := by
    obtain ⟨hports, hall⟩ := foldl_linkChange later ctx
    exact ⟨hports.trans hctx.1, hall.trans hctx.2⟩
  have hle : ctx.numPorts.toNat ≤ 15 := by rw [hctx.1]; exact hn.2
  have hle' : ctx'.numPorts.toNat ≤ 15 := by rw [hctx'.1]; exact hn.2
  have hall : ctx.allPortsMask = portsMask ctx.numPorts.toNat := by rw [hctx.1]; exact hctx.2
  have hall' : ctx'.allPortsMask = portsMask ctx'.numPorts.toNat := by rw [hctx'.1]; exact hctx'.2
  have hdst' : isGlobalMulticast (dstIp (frame.set egressIdx 0)) = true ∨
      isLinkLocalMulticast (dstIp (frame.set egressIdx 0)) = true := by
    rw [multicast_egress.1, multicast_egress.2]
    exact hdst
  refine ⟨fun port => ?_, fun s hs => ?_, fun hglobal => ?_, fun hlink hports => ?_,
    fun payload portMask => ?_⟩
  · have hbit : 1 ≤ port → port ≤ numPorts.toNat →
        (hasPort (bmL2LinkOutput ctx frame).2 (port - 1) = true ↔
          Requested numPorts.toNat (byte frame egressIdx) port ∧
            linkUp history (port - 1) = true) := by
      intro hpos hmax
      have hreq := hasPort_linkOutputMask hle hall (byte frame egressIdx)
        (by rw [hctx.1]; omega : port - 1 < ctx.numPorts.toNat)
      rw [hctx.1, Nat.sub_add_cancel hpos] at hreq
      rw [bmL2LinkOutput, bmL2Tx, hasPort_and, Bool.and_eq_true, hreq,
        hasPort_enabled numPorts history (by omega)]
    have hports : sent.flatMap (portsOf ctx') =
        (selected ctx' (bmL2LinkOutput ctx frame).2).map (· + 1) :=
      bmL2ProcessTxEvt_ports hle' hall' hdst'
    rw [hports, count_selected, hctx'.1]
    refine if_congr ⟨fun h => (hbit h.1 h.2.1).mp h.2.2, fun h => ?_⟩ rfl rfl
    exact ⟨h.1.1, h.1.2.1, (hbit h.1.1 h.1.2.1).mpr h⟩
  · have huntouched : Untouched egressIdx := ⟨by decide, by decide, by decide, by decide⟩
    refine ⟨(bmL2ProcessTxEvt_byte huntouched ctx' _ s hs).trans (byte_set_self ?_),
      bmL2ProcessTxEvt_sameButStamp ctx' _ s hs⟩
    exact Nat.lt_of_lt_of_le (by decide) hlen
  · refine bmL2ProcessTxEvt_global_same ?_ ctx' _
    rw [bmL2LinkOutput, bmL2Tx, multicast_egress.1]
    exact hglobal
  · refine bmL2ProcessTxEvt_portsByte ?_ ?_ ?_ ctx' _
    · rw [bmL2LinkOutput, bmL2Tx, List.length_set]
      exact hlen
    · rw [bmL2LinkOutput, bmL2Tx, multicast_egress.1]
      exact not_isGlobalMulticast hlink
    · exact (byte_set_ne (by decide)).trans hports
  · rw [sendGlobalMulticastPacket_ports hle' hall' payload portMask]
    refine Eq.trans ?_ (flatMap_portsOf ?_ fun _ => payload).symm
    · rw [selected, hctx'.1]
    · intro i hi
      have hlt := List.mem_range.mp (List.mem_filter.mp hi).1
      omega

/-- Two of three links are up, and the message is for port 2. -/
theorem link_output_ports_emptyMessage :
    let ctx := [(0, true), (1, true), (2, true), (2, false)].foldl linkChange (bmL2Init 3)
    let frame := (emptyMessage 1 0 0xAB 0).set egressIdx 2
    let sent := bmL2ProcessTxEvt ctx (bmL2LinkOutput ctx frame).1 (bmL2LinkOutput ctx frame).2
    sent.map (·.1) = [2] ∧ (∀ port, (sent.flatMap (portsOf ctx)).count port =
        if Requested 3 2 port ∧
          linkUp [(0, true), (1, true), (2, true), (2, false)] (port - 1) = true then 1 else 0) ∧
      ∀ s ∈ sent, SameButStamp (emptyMessage 1 0 0xAB 0) s.2 ∧ portsByte s.2 = s.1 := by
  intro ctx frame sent
  obtain ⟨hcount, hsame, -, hports, -⟩ := link_output_ports 3 (by decide)
    [(0, true), (1, true), (2, true), (2, false)] [] frame (by decide +kernel)
    (.inr (by decide +kernel))
  exact ⟨by decide +kernel, hcount, fun s hs => ⟨(hsame s hs).2,
    hports (by decide +kernel) (by decide +kernel) s hs⟩⟩

end Output

end BmCore.Network
