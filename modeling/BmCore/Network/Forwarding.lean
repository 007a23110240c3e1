import BmCore.Library.Runs
import BmCore.Network.Policy

/-!
# Forwarding over several hops

A link-local frame that an application routes onwards is received, copied, stripped of its ports
and stamped with the next egress port at every hop. The checksum follows the stamping but not the
stripping.
-/
namespace BmCore.Network
open Library

/-- One hop of a frame: the node, the port the frame comes in by and the one it leaves by. -/
structure Hop where
  ctx : BmL2Ctx
  routingCb : L2LinkLocalRoutingCb
  ingress : UInt8
  egress : UInt8

namespace Hop

/-- Every frame the node sends for a received one. -/
def sent (hop : Hop) (frame : List UInt8) : List Sent :=
  match (bmL2ProcessRxEvt hop.ctx (some hop.routingCb) true frame
      (rxPortMask hop.ingress)).forwarded with
  | some (fwd, mask) => bmL2ProcessTxEvt hop.ctx fwd mask
  | none => []

/-- The frame on the wire behind the egress port. -/
def out (hop : Hop) (frame : List UInt8) : Option (List UInt8) :=
  ((hop.sent frame).find? fun sent => sent.1 == hop.egress).map Prod.snd

end Hop

/-- The frame behind a hop. -/
def nextFrame (frame : List UInt8) (hop : Hop) : List UInt8 := (hop.out frame).getD frame

/-- Every hop sends the frame on by its egress port. -/
def Forwards : List UInt8 → List Hop → Prop := Along nextFrame fun frame hop =>
  hop.ctx.numPorts.toNat ≤ 15 ∧ (hop.out frame).isSome

/-- Every node the frame comes to accepts its checksum. -/
def Verified : List UInt8 → List Hop → Prop := Along nextFrame fun frame hop =>
  verifies (nextFrame frame hop) = true

/-- Every hop takes a frame that keeps its checksum. -/
def KeepsChecksum : List UInt8 → List Hop → Prop := Along nextFrame fun frame hop =>
  keepsChecksum frame hop.egress = true

/-! ## The frame behind a hop -/

namespace LinkLocalFrame
variable {frame : List UInt8}

theorem setPortsByte (h : LinkLocalFrame frame) {v : UInt8} (hv : v.toNat < 16) :
    LinkLocalFrame (setPortsByte frame v) := by
  have hlen : frameHdrLen ≤ frame.length := le_trans (Nat.le_add_right _ _) h.fits
  refine ⟨?_, ?_, ?_, ?_, ?_⟩
  · simpa using h.ethertype
  · simpa using h.dst
  · simpa [setPortsByte_length] using h.fits
  · simpa using h.upper
  · rw [portsByte_setPortsByte frame v hlen]
    exact hv

/-- A byte behind the lengths of the upper layer may change. -/
theorem set_upper (h : LinkLocalFrame frame) {i : Nat} (v : UInt8) (hi : frameHdrLen ≤ i)
    (hudp : ipv6GetNextHeader frame = ipProtoUdp → udpChecksumOffset ≤ i) :
    LinkLocalFrame (frame.set i v) := by
  simp only [frameHdrLen] at hi
  have hword : ∀ off, off + 1 < 54 → uint8ToUint16 (frame.set i v) off =
      uint8ToUint16 frame off := by
    intro off hoff
    exact uint8ToUint16_set (by omega) (by omega)
  have hnext : ipv6GetNextHeader (frame.set i v) = ipv6GetNextHeader frame := by
    refine byte_set_ne ?_
    simp only [ipv6NextHeaderOffset]
    omega
  have hpay : ipv6GetPayloadLength (frame.set i v) = ipv6GetPayloadLength frame :=
    hword _ (by decide)
  refine ⟨?_, ?_, ?_, ?_, ?_⟩
  · exact (hword _ (by decide)).trans h.ethertype
  · rw [dstIp_set_of_ge (by simp only [frameHdrLen]; omega)]
    exact h.dst
  · rw [hpay, List.length_set]
    exact h.fits
  · rw [hnext, hpay]
    refine h.upper.imp ?_ id
    rintro ⟨hproto, hlen⟩
    have hlow := hudp hproto
    have hsame : udpGetLength (frame.set i v) = udpGetLength frame := by
      simp only [udpChecksumOffset] at hlow
      refine uint8ToUint16_set ?_ ?_ <;> simp only [udpLengthOffset] <;> omega
    rw [hsame]
    exact ⟨hproto, hlen⟩
  · have hports : portsByte (frame.set i v) = portsByte frame := by
      refine byte_set_ne ?_
      simp only [ipv6IngressEgressPortsOffset, ipv6SourceAddressOffset]
      omega
    rw [hports]
    exact h.ingress

theorem updateChecksum (h : LinkLocalFrame frame) (udp : UInt8 → UInt8)
    (bcmp : UInt16 → UInt16) : LinkLocalFrame (updateChecksum udp bcmp frame) := by
  rcases h.carries with hudp | hbcmp
  · rw [hudp.updateChecksum_udp]
    exact h.set_upper _ (by decide) fun _ => le_refl _
  · rw [hbcmp.updateChecksum_bcmp]
    have hne : ipProtoBcmp ≠ ipProtoUdp := by decide
    generalize (bcmp (getUint16 frame bcmpChecksumOffset ^^^ 0xFFFF) ^^^ 0xFFFF) = c
    have hfirst : Carries ipProtoBcmp (frame.set bcmpChecksumOffset (.ofNat c.toNat)) :=
      hbcmp.set (by decide) _
    refine (h.set_upper (i := bcmpChecksumOffset) _ (by decide) fun hp =>
      absurd (hbcmp.next.symm.trans hp) hne).set_upper _ (by decide) fun hp =>
        absurd (hfirst.next.symm.trans hp) hne

end LinkLocalFrame

/-- A hop clears the ports and stamps its egress port. -/
theorem Hop.out_eq {hop : Hop} (hports : hop.ctx.numPorts.toNat ≤ 15)
    (hsrc : KeepsSrc hop.routingCb) {frame g : List UInt8} (h : LinkLocalFrame frame)
    (hout : hop.out frame = some g) :
    hop.egress.toNat < 16 ∧ g = networkAddEgressPort (clearPorts frame) hop.egress := by
  have hlen : frameHdrLen ≤ frame.length := le_trans (Nat.le_add_right _ _) h.fits
  have hclear : LinkLocalFrame (clearPorts frame) := h.setPortsByte (by decide)
  unfold Hop.out at hout
  obtain ⟨⟨port, payload⟩, hfind, rfl⟩ := Option.map_eq_some_iff.mp hout
  have hegress : port = hop.egress := by
    have := List.find?_some hfind
    simpa using this
  have hmem := List.mem_of_find?_eq_some hfind
  unfold Hop.sent at hmem
  split at hmem
  next fwd mask hfwd =>
    have hcopy : fwd = clearPorts frame := by
      refine bmL2ProcessRxEvt_forwarded hlen ?_ hfwd
      intro cb hcb
      rw [← Option.some.inj hcb]
      exact hsrc
    rw [hcopy, bmL2ProcessTxEvt_linkLocal hop.ctx hclear
      (portsByte_setPortsByte frame 0 hlen)] at hmem
    obtain ⟨idx, hidx, heq⟩ := List.mem_map.mp hmem
    have hlt : idx < hop.ctx.numPorts.toNat := List.mem_range.mp (List.mem_filter.mp hidx).1
    have hport : UInt8.ofNat (idx + 1) = port := (Prod.mk.inj heq).1
    have hval : port.toNat = idx + 1 := by
      rw [← hport]
      exact UInt8.toNat_ofNat_of_lt' (by simp only [UInt8.size]; omega)
    rw [← hegress]
    refine ⟨by omega, ?_⟩
    rw [← hport]
    exact (Prod.mk.inj heq).2.symm
  next => exact absurd hmem (by simp)

/-- One hop: the next node accepts the frame exactly when it keeps its checksum, and the frame is
again one that the following hop can take. -/
theorem hop_verifies_iff {hop : Hop} (hports : hop.ctx.numPorts.toNat ≤ 15)
    (hsrc : KeepsSrc hop.routingCb) {frame : List UInt8} (h : LinkLocalFrame frame)
    (hv : verifies frame = true) (hout : (hop.out frame).isSome = true) :
    LinkLocalFrame (nextFrame frame hop) ∧
      (verifies (nextFrame frame hop) = true ↔ keepsChecksum frame hop.egress = true) := by
  obtain ⟨g, hg⟩ := Option.isSome_iff_exists.mp hout
  have hlen : frameHdrLen ≤ frame.length := le_trans (Nat.le_add_right _ _) h.fits
  obtain ⟨hq, rfl⟩ := hop.out_eq hports hsrc h hg
  have hnext : nextFrame frame hop = networkAddEgressPort (clearPorts frame) hop.egress := by
    rw [nextFrame, hg]
    rfl
  rw [hnext]
  refine ⟨?_, stamp_verifies_iff h hv hq⟩
  rw [networkAddEgressPort_clearPorts _ hlen]
  exact (h.setPortsByte hq).updateChecksum _ _

/-- A frame that verifies is accepted at every hop of a chain exactly when every hop takes a frame
that keeps its checksum. -/
theorem forwarding_verifies_iff (frame : List UInt8) (h : LinkLocalFrame frame)
    (hv : verifies frame = true) (hops : List Hop) (hfwd : Forwards frame hops)
    (hsrc : ∀ hop ∈ hops, KeepsSrc hop.routingCb) :
    Verified frame hops ↔ KeepsChecksum frame hops := by
  induction hops generalizing frame with
  | nil => exact Iff.rfl
  | cons hop hops ih =>
    obtain ⟨⟨hports, hout⟩, hrest⟩ := hfwd
    obtain ⟨hnext, hiff⟩ :=
      hop_verifies_iff hports (hsrc hop List.mem_cons_self) h hv hout
    have hsrc' : ∀ hop ∈ hops, KeepsSrc hop.routingCb :=
      fun hop hmem => hsrc hop (List.mem_cons_of_mem _ hmem)
    constructor
    · rintro ⟨hfirst, hall⟩
      exact ⟨hiff.mp hfirst, (ih _ hnext hfirst hrest hsrc').mp hall⟩
    · rintro ⟨hfirst, hall⟩
      have hv' := hiff.mpr hfirst
      exact ⟨hv', (ih _ hnext hv' hrest hsrc').mpr hall⟩

/-- FF02::3, the MAVLink address. -/
def linkLocalMavlinkAddr : BmIpAddr := addrAt (emptyMessage 3 0 0 0) ipv6DestinationAddressOffset

/-- A hop through a node with `numPorts` links and the MAVLink middleware. -/
def mavlinkHop (numPorts ingress egress : UInt8) : Hop :=
  let ctx : BmL2Ctx := ⟨numPorts, .ofNat (2 ^ numPorts.toNat - 1), .ofNat (2 ^ numPorts.toNat - 1)⟩
  ⟨ctx, handleMiddlewareRouting [⟨linkLocalMavlinkAddr, some (mavlinkRoutingCb ctx)⟩],
    ingress, egress⟩

instance (frame : List UInt8) (hops : List Hop) : Decidable (Forwards frame hops) :=
  inferInstanceAs (Decidable (Along _ _ _ _))

instance (frame : List UInt8) (hops : List Hop) : Decidable (Verified frame hops) :=
  inferInstanceAs (Decidable (Along _ _ _ _))

instance (frame : List UInt8) (hops : List Hop) : Decidable (KeepsChecksum frame hops) :=
  inferInstanceAs (Decidable (Along _ _ _ _))

/-- Out by port 1 and then by port 2 the two errors make up for each other. -/
theorem forwarding_verifies_twoHops :
    Verified ((emptyMessage 3 1 0 0xA8).set 60 0xFF) [mavlinkHop 2 2 1, mavlinkHop 2 1 2] :=
  (forwarding_verifies_iff ((emptyMessage 3 1 0 0xA8).set 60 0xFF)
    ⟨by decide +kernel, by decide +kernel, by decide +kernel, by decide +kernel, by decide +kernel⟩
    (by decide +kernel) [mavlinkHop 2 2 1, mavlinkHop 2 1 2] (by decide +kernel) (by
      intro hop hmem
      simp only [List.mem_cons, List.not_mem_nil, or_false] at hmem
      rcases hmem with rfl | rfl <;> exact keepsSrc_mavlink _ _)).mpr (by decide +kernel)

/-- A message that left its sender by port 2 verifies at the next node and no more behind it. -/
theorem forwarding_loses_checksum :
    LinkLocalFrame (networkAddEgressPort (emptyMessage 3 0 0xA9 0) 2) ∧
      verifies (networkAddEgressPort (emptyMessage 3 0 0xA9 0) 2) = true ∧
      Forwards (networkAddEgressPort (emptyMessage 3 0 0xA9 0) 2) [mavlinkHop 2 1 2] ∧
      ¬ Verified (networkAddEgressPort (emptyMessage 3 0 0xA9 0) 2) [mavlinkHop 2 1 2] :=
  ⟨⟨by decide +kernel, by decide +kernel, by decide +kernel, by decide +kernel,
    by decide +kernel⟩, by decide +kernel, by decide +kernel, by decide +kernel⟩

end BmCore.Network
