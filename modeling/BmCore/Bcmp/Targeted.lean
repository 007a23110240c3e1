import BmCore.Bcmp.Frames
import BmCore.Network.Flooding

/-!
# Messages for one node

Config requests and system time messages name the node they are for, and are sent to FF02::1, which
the link layer does not forward. A node that such a message is not for sends it on with
`bcmp_ll_forward`, by every port but the one it came by, until it has come to its target. The nodes
take the events of their queues in any order.

As for global multicast, the message runs away from its sender. What is to be handled below a node
is handled once, by the target.
-/
namespace BmCore.Bcmp
open Library BmCore.Network

variable {V Callback : Type}

/-! ## The machine -/

/-- Nodes with their cables and their state. -/
structure Deployment (V Callback : Type) where
  net : Cabling V
  routingCb : V → Option L2LinkLocalRoutingCb
  nodeId : V → UInt64
  packet : V → PacketInfo Processor Callback
  isTree : net.graph.IsTree
  nodeId_injective : Function.Injective nodeId
  nodeId_ne_zero : ∀ v, nodeId v ≠ 0
  registered : ∀ v, Registered (packet v)

/-- The events of a node: those of its link layer, and the messages for its BCMP thread. -/
inductive NodeEvent where
  | l2 (evt : L2Event)
  | bcmp (frame : List UInt8) (size : Nat)

/-- The queues of all nodes, and what the nodes have done with the messages that came to them. -/
abbrev Traffic (V : Type) := Worklist (V × NodeEvent) (V × Outcome)

/-- `max_payload_len` -/
def maxPayloadLen : Nat := 1460
/-- `sizeof(BcmpHeartbeat)` -/
def heartbeatSize : Nat := 12

namespace Deployment
variable (d : Deployment V Callback)

/-- The event of a frame that a node gives to `bm_l2_link_output`. -/
def output (v : V) (frame : List UInt8) : V × NodeEvent :=
  let out := bmL2LinkOutput (d.net.ctx v) frame
  (v, .l2 (.tx out.1 out.2))

/-- `bcmp_tx` to `multicast_ll_addr`, where it succeeds. -/
def bcmpTx (o : V) (taken : Bool) (node : Option Nat) (now : UInt32) (type : UInt16)
    (data : List UInt8) (seqNum : UInt32) (replyCb : Option Callback) : Option (V × NodeEvent) :=
  if data.length + heartbeatSize ≤ maxPayloadLen then
    match serialize (d.packet o) taken node now ⟨llAddr (d.nodeId o), multicastLlAddr, []⟩ data type
        seqNum replyCb with
    | some (_, packet, .ok) =>
      some (d.output o (bmIpTxPerform (d.nodeId o) packet multicastLlAddr))
    | _ => none
  else none

/-- What a BCMP event of a node gives to its handler. -/
def received (v : V) (frame : List UInt8) (size : Nat) : Except BmErr BcmpProcessData :=
  receive (d.packet v) (packetOf frame) (size - bcmpHeaderSize)

def outcome (v : V) (data : BcmpProcessData) : Outcome :=
  outcomeOf (d.nodeId v) data ((dispatch (d.packet v) true true data).bind (·.2.2))

/-- The events that an event of a node leads to, with what a handler has done. -/
def processNodeEvt : V × NodeEvent → List (V × NodeEvent) × List (V × Outcome)
  | (v, .l2 evt) =>
    let out := processEvt d.net d.routingCb (v, evt)
    (out.1.map (fun e => (e.1, .l2 e.2)) ++
      out.2.filterMap fun s => (bmL2Submit s.2).map fun size => (s.1, .bcmp s.2 size), [])
  | (v, .bcmp frame size) =>
    match d.received v frame size with
    | .error _ => ([], [])
    | .ok data =>
      (if d.outcome v data = .forwarded then
        (bcmpLlForward (d.nodeId v) (d.net.ctx v).numPorts (d.packet v).checksum data).map
          (d.output v)
      else [], [(v, d.outcome v data)])

/-- The event is not a message that fails its checksum test. -/
def checksumPasses : V × NodeEvent → Bool
  | (_, .l2 _) => true
  | (v, .bcmp frame size) => (d.received v frame size).isOk

end Deployment

/-- How often a node has handled the message. -/
def handlings [DecidableEq V] (s : Traffic V) (v : V) : Nat := s.done.count (v, .handled)

/-! ## The messages -/

/-- Messages that are handled by the node they name: config requests, and system time messages that
are not for node 0. -/
def Targeted (type : UInt16) (target : UInt64) : Prop :=
  (∃ m, ConfigMessage.ofType type = some m ∧ m.sequencedReply = false) ∨
    (type ∈ [bcmpSystemTimeRequestMessage, bcmpSystemTimeResponseMessage,
      bcmpSystemTimeSetMessage] ∧ target ≠ 0)

section Handlers
variable {d : Deployment V Callback} {v : V} {data : BcmpProcessData} {type : UInt16}
  {target source : UInt64} {body : List UInt8}

/-- A message whose type is no reply goes to the handler of the type. -/
theorem dispatch_process {cfg : BcmpPacketCfg Processor} (hcfg : cfgOf data.type = some cfg)
    (hreply : cfg.sequencedReply = false) :
    (dispatch (d.packet v) true true data).bind (·.2.2) = cfg.process.map (.process · data) := by
  have hnot : cfg.isReply = false := by simp [BcmpPacketCfg.isReply, hreply]
  unfold dispatch
  rw [d.registered v, hcfg]
  simp [hnot, deliver]

/-- The target handles the message, and every other node forwards it. -/
theorem outcome_targeted (htargeted : Targeted type target) (htype : data.type = type)
    (hpayload : data.payload = configHeader target source ++ body) :
    d.outcome v data = if d.nodeId v = target then .handled else .forwarded := by
  have htarget : targetNodeId data.payload = target := by
    rw [hpayload, targetNodeId_configHeader]
  unfold Deployment.outcome
  rcases htargeted with ⟨m, hm, hreply⟩ | ⟨htime, hne⟩
  · rw [← htype] at hm
    rw [dispatch_process (cfgOf_config hm) hreply]
    simp only [ConfigMessage.cfg, Option.map_some, outcomeOf, bcmpProcessConfigMessage, htarget]
    by_cases hid : d.nodeId v = target
    · simp [hid]
    · simp [hid, Ne.symm hid]
  · have hcfg : cfgOf data.type = some (unsequenced .time) := by
      rw [htype]
      simp only [List.mem_cons, List.not_mem_nil, or_false] at htime
      rcases htime with rfl | rfl | rfl <;> rfl
    rw [dispatch_process hcfg rfl]
    simp only [unsequenced, Option.map_some, outcomeOf, bcmpTimeProcessTimeMessage, htarget, htype]
    simp only [List.mem_cons, List.not_mem_nil, or_false] at htime
    by_cases hid : d.nodeId v = target
    · simp only [hid, ne_eq, not_true, false_and, if_false, if_true]
      grind
    · simp [hid, Ne.symm hid, hne]

end Handlers

/-! ## What the events have to bring about -/

section Events
variable (d : Deployment V Callback) (o : V) (type : UInt16) (seqNum : UInt32)
  (payload : List UInt8)

/-- The message runs away from `o`: it is sent by ports that lead to children, and comes in from
the parent. -/
def OutwardMessage : V × NodeEvent → Prop
  | (v, .l2 (.tx frame portMask)) => Carrying type seqNum payload frame ∧ portsByte frame = 0 ∧
    ∀ e ∈ d.net.through v portMask, Child d.net.graph o v e.2.1
  | (v, .l2 (.rx frame portMask)) => Carrying type seqNum payload frame ∧ ∃ q u p,
    portMask = rxPortMask q ∧ d.net.link v q = some (u, p) ∧ Child d.net.graph o u v
  | (v, .bcmp frame size) => Carrying type seqNum payload frame ∧
    size = bcmpHeaderSize + payload.length ∧ ∃ q u p, (portsByte frame >>> 4) &&& 0xF = q ∧
      d.net.link v q = some (u, p) ∧ Child d.net.graph o u v

/-- 1 for the nodes that the message comes to because of an event, if no node in between handles
it. -/
noncomputable def reaches (x : V) : V × NodeEvent → Nat
  | (v, .l2 (.tx _ portMask)) =>
    ((d.net.through v portMask).map fun e => reach d.net.graph o e.2.1 x).sum
  | (v, .l2 (.rx _ _)) => reach d.net.graph o v x
  | (v, .bcmp _ _) => reach d.net.graph o v x

/-- A node receives the message, handles it and sends it by 15 ports at most. -/
noncomputable def nodeEvtCost [Fintype V] : V × NodeEvent → Nat
  | (v, .l2 (.tx frame portMask)) => 17 * ∑ x, reaches d o x (v, .l2 (.tx frame portMask)) + 1
  | (v, .l2 (.rx _ _)) => 17 * ∑ x, reach d.net.graph o v x
  | (v, .bcmp _ _) => 17 * ∑ x, reach d.net.graph o v x - 1

end Events

/-- The ingress port that the link layer has written is read back. -/
theorem ingress_of_nibble (x : UInt8) {q : UInt8} (h : q.toNat ≤ 15) :
    (setIngressNibble x q >>> 4) &&& 0xF = q := by
  have hall : ∀ (i : Fin 256) (k : Fin 16),
      (setIngressNibble (.ofNat i) (.ofNat k) >>> 4) &&& 0xF = UInt8.ofNat k := by decide +kernel
  have hx := hall ⟨x.toNat, x.toNat_lt⟩ ⟨q.toNat, by omega⟩
  simpa using hx

section Steps
variable {d : Deployment V Callback} {o v : V} {type : UInt16} {seqNum : UInt32}
  {payload frame : List UInt8}

/-- A transmit event makes the nodes at the ends of its cables receive the message. -/
theorem processNodeEvt_tx (hcarry : Carrying type seqNum payload frame)
    (hports : portsByte frame = 0) (portMask : UInt16) :
    d.processNodeEvt (v, .l2 (.tx frame portMask)) = ((d.net.through v portMask).map fun e =>
      (e.2.1, .l2 (.rx (networkAddEgressPort frame (.ofNat (e.1 + 1))) (rxPortMask e.2.2))),
      []) := by
  have hsent := bmL2ProcessTxEvt_linkLocal (d.net.ctx v) (hcarry.linkLocalFrame hports) hports
    portMask
  simp only [Deployment.processNodeEvt, processEvt, hsent, Cabling.arrivals_ports, List.map_map,
    List.filterMap_nil, List.append_nil]
  rfl

/-- A receive event gives the message to the BCMP thread. -/
theorem processNodeEvt_rx (hcarry : Carrying type seqNum payload frame) {q : UInt8}
    (hpos : 1 ≤ q.toNat) (hle : q.toNat ≤ 15) :
    d.processNodeEvt (v, .l2 (.rx frame (rxPortMask q))) =
      ([(v, .bcmp (setPortsByte frame (setIngressNibble (portsByte frame) q))
        (bcmpHeaderSize + payload.length))], []) := by
  have hne : q ≠ 0 := by
    rintro rfl
    exact absurd hpos (by decide)
  simp only [Deployment.processNodeEvt, processEvt,
    hcarry.bmL2ProcessRxEvt _ _ _ (ffs_rxPortMask hpos hle) hne]
  simp [(hcarry.setPortsByte _).bmL2Submit]

/-- A frame for one port leaves by this port. -/
theorem output_onePort {packet : Packet} (hsrc : packet.src = llAddr (d.nodeId v)) {i : Nat}
    (hi : i < (d.net.ctx v).numPorts.toNat) :
    d.output v (bmIpTxPerform (d.nodeId v) packet (portSpecificDst (.ofNat (i + 1)))) =
      (v, .l2 (.tx ((bmIpTxPerform (d.nodeId v) packet
        (portSpecificDst (.ofNat (i + 1)))).set egressIdx 0)
          (.ofNat (2 ^ i) &&& (d.net.ctx v).enabledPortsMask))) := by
  have hport : (UInt8.ofNat (i + 1)).toNat = i + 1 :=
    Cabling.portNum_toNat (Nat.lt_of_lt_of_le hi (d.net.numPorts_le v))
  have hin : 0 < UInt8.ofNat (i + 1) ∧ UInt8.ofNat (i + 1) ≤ (d.net.ctx v).numPorts := by
    rw [UInt8.lt_iff_toNat_lt, UInt8.le_iff_toNat_le, hport]
    exact ⟨Nat.succ_pos i, hi⟩
  simp only [Deployment.output, bmL2LinkOutput, byte_output hsrc, linkOutputMask, if_pos hin, hport,
    Nat.add_sub_cancel, bmL2Tx]

/-- What a node forwards carries the message that it has received. -/
theorem carrying_forwarded (hcarry : Carrying type seqNum payload frame) {data : BcmpProcessData}
    (hreceived : d.received v frame (bcmpHeaderSize + payload.length) = .ok data)
    (egressPort : UInt8) :
    let out := (bmIpTxPerform (d.nodeId v) (forwardPacket (d.packet v).checksum
      (llAddr (d.nodeId v)) data) (portSpecificDst egressPort)).set egressIdx 0
    Carrying type seqNum payload out ∧ portsByte out = 0 := by
  rw [Deployment.received, Nat.add_sub_cancel_left] at hreceived
  obtain ⟨htype, hseq, hpayload, hsize, hheader, -⟩ := hcarry.receive_packetOf hreceived
  obtain ⟨htype', hseq', hpayload'⟩ :=
    forwardPacket_message (d.packet v).checksum (llAddr (d.nodeId v)) hheader
  rw [hpayload, hsize, List.take_length] at hpayload'
  refine carrying_output rfl ?_ hcarry.fits (htype'.trans htype) (hseq'.trans hseq) hpayload'
  simp only [forwardPacket, length_setChecksum, List.length_append, hheader, hpayload, hsize,
    List.take_length]

variable {target source : UInt64} {body : List UInt8}

/-- The target handles the message. Every other node sends it by all ports but the one it came
by. -/
theorem processNodeEvt_bcmp (htargeted : Targeted type target)
    (hcarry : Carrying type seqNum (configHeader target source ++ body) frame) {size : Nat}
    (hsize : size = bcmpHeaderSize + (configHeader target source ++ body).length)
    (hpass : d.checksumPasses (v, .bcmp frame size) = true) :
    ∃ out : Nat → List UInt8,
      (∀ i, Carrying type seqNum (configHeader target source ++ body) (out i) ∧
        portsByte (out i) = 0) ∧
      d.processNodeEvt (v, .bcmp frame size) =
        (if d.nodeId v = target then [] else
          ((List.range (d.net.ctx v).numPorts.toNat).filter fun i =>
            Cabling.portNum i != (portsByte frame >>> 4) &&& 0xF).map fun i =>
              (v, .l2 (.tx (out i) (.ofNat (2 ^ i) &&& (d.net.ctx v).enabledPortsMask))),
        [(v, if d.nodeId v = target then .handled else .forwarded)]) := by
  subst hsize
  cases hreceived : d.received v frame
      (bcmpHeaderSize + (configHeader target source ++ body).length) with
  | error err =>
    rw [Deployment.checksumPasses, hreceived] at hpass
    exact absurd hpass (by simp [Except.isOk, Except.toBool])
  | ok data =>
    have hreceive := hreceived
    rw [Deployment.received, Nat.add_sub_cancel_left] at hreceive
    obtain ⟨htype, -, hpayload, -, -, hingress⟩ := hcarry.receive_packetOf hreceive
    have houtcome := outcome_targeted (d := d) (v := v) htargeted htype hpayload
    refine ⟨fun i => (bmIpTxPerform (d.nodeId v) (forwardPacket (d.packet v).checksum
      (llAddr (d.nodeId v)) data) (portSpecificDst (.ofNat (i + 1)))).set egressIdx 0,
      fun i => carrying_forwarded hcarry hreceived (.ofNat (i + 1)), ?_⟩
    simp only [Deployment.processNodeEvt, hreceived, houtcome]
    by_cases hid : d.nodeId v = target
    · rw [if_pos hid, if_pos hid, if_neg (by decide)]
    · rw [if_neg hid, if_neg hid, if_pos rfl, bcmpLlForward, List.map_map, hingress]
      refine Prod.ext (List.map_congr_left fun i hi => ?_) rfl
      exact output_onePort rfl (List.mem_range.mp (List.mem_filter.mp hi).1)

theorem processNodeEvt_outward (htargeted : Targeted type target) (e : V × NodeEvent)
    (h : OutwardMessage d o type seqNum (configHeader target source ++ body) e)
    (hpass : d.checksumPasses e = true) :
    (∀ e' ∈ (d.processNodeEvt e).1,
        OutwardMessage d o type seqNum (configHeader target source ++ body) e') ∧
      ∀ s ∈ (d.processNodeEvt e).2,
        s.2 = if d.nodeId s.1 = target then .handled else .forwarded := by
  obtain ⟨v, (⟨frame, portMask⟩ | ⟨frame, portMask⟩) | ⟨frame, size⟩⟩ := e
  · obtain ⟨hcarry, hports, hchildren⟩ := h
    rw [processNodeEvt_tx hcarry hports]
    refine ⟨fun e' he' => ?_, by simp⟩
    obtain ⟨t, ht, rfl⟩ := List.mem_map.mp he'
    have hlink := d.net.link_symm (Cabling.mem_through.mp ht).2.2
    exact ⟨hcarry.addEgressPort _, t.2.2, v, _, rfl, hlink, hchildren t ht⟩
  · obtain ⟨hcarry, q, u, p, rfl, hlink, hchild⟩ := h
    obtain ⟨hpos, hle⟩ := d.net.link_port hlink
    have hmax := hle.trans (d.net.numPorts_le v)
    rw [processNodeEvt_rx hcarry hpos hmax]
    refine ⟨fun e' he' => ?_, by simp⟩
    rw [List.mem_singleton.mp he']
    refine ⟨hcarry.setPortsByte _, rfl, q, u, p, ?_, hlink, hchild⟩
    rw [portsByte_setPortsByte _ _ hcarry.hdr_le, ingress_of_nibble _ hmax]
  · obtain ⟨hcarry, hsize, q, u, p, rfl, hlink, hchild⟩ := h
    obtain ⟨out, hout, hprocess⟩ := processNodeEvt_bcmp htargeted hcarry hsize hpass
    rw [hprocess]
    refine ⟨fun e' he' => ?_, fun s hs => by rw [List.mem_singleton.mp hs]⟩
    split at he'
    · exact absurd he' List.not_mem_nil
    obtain ⟨i, hi, rfl⟩ := List.mem_map.mp he'
    obtain ⟨hrange, hne⟩ := List.mem_filter.mp hi
    refine ⟨(hout i).1, (hout i).2, fun t ht => ?_⟩
    rw [Cabling.through_onePort (List.mem_range.mp hrange)] at ht
    obtain ⟨⟨w, q'⟩, hw, rfl⟩ := List.mem_map.mp ht
    exact Cabling.child_of_ne_port d.isTree hlink hchild (Option.mem_toList.mp hw)
      (by simpa using hne)

/-- What a node forwards goes to everything strictly below it. -/
theorem sum_reach_forwarded {u : V} {p q : UInt8} (hlink : d.net.link v q = some (u, p))
    (hchild : Child d.net.graph o u v) (x : V) :
    (((List.range (d.net.ctx v).numPorts.toNat).filter fun i => Cabling.portNum i != q).map fun i =>
      ((d.net.through v (.ofNat (2 ^ i) &&& (d.net.ctx v).enabledPortsMask)).map
        fun e => reach d.net.graph o e.2.1 x).sum).sum = beyond d.net.graph o v x := by
  obtain ⟨hpos, hle⟩ := d.net.link_port hlink
  rw [Cabling.sum_onePort hpos (hle.trans (d.net.numPorts_le v)) (reach d.net.graph o · x)]
  exact Cabling.sum_reach_through d.isTree (Cabling.toChildren_inner d.isTree hlink hchild) x

/-- The target handles the message or it is handed on to where the target is. -/
theorem processNodeEvt_reaches [DecidableEq V] (htargeted : Targeted type target) {x : V}
    (hx : d.nodeId x = target) (e : V × NodeEvent)
    (h : OutwardMessage d o type seqNum (configHeader target source ++ body) e)
    (hpass : d.checksumPasses e = true) :
    ((d.processNodeEvt e).1.map (reaches d o x)).sum +
      ((d.processNodeEvt e).2.map fun s => if (x, Outcome.handled) = s then 1 else 0).sum =
        reaches d o x e := by
  obtain ⟨v, (⟨frame, portMask⟩ | ⟨frame, portMask⟩) | ⟨frame, size⟩⟩ := e
  · obtain ⟨hcarry, hports, -⟩ := h
    rw [processNodeEvt_tx hcarry hports, List.map_map]
    rfl
  · obtain ⟨hcarry, q, u, p, rfl, hlink, -⟩ := h
    obtain ⟨hpos, hle⟩ := d.net.link_port hlink
    rw [processNodeEvt_rx hcarry hpos (hle.trans (d.net.numPorts_le v))]
    rfl
  · obtain ⟨hcarry, hsize, q, u, p, rfl, hlink, hchild⟩ := h
    obtain ⟨out, -, hprocess⟩ := processNodeEvt_bcmp htargeted hcarry hsize hpass
    have hreach := reach_eq (G := d.net.graph) (o := o) v x
    rw [hprocess]
    by_cases hid : d.nodeId v = target
    · obtain rfl : v = x := d.nodeId_injective (hid.trans hx.symm)
      simp [hid, reaches, reach, Below, Relation.ReflTransGen.refl]
    · have hne : x ≠ v := by
        rintro rfl
        exact hid hx
      have hbelow := sum_reach_forwarded hlink hchild x
      simp only [hne, if_false, Nat.zero_add] at hreach
      simp only [hid, if_false, List.map_map, Function.comp_def, reaches, hbelow, hreach]
      simp

theorem processNodeEvt_cost [Fintype V] (htargeted : Targeted type target) (e : V × NodeEvent)
    (h : OutwardMessage d o type seqNum (configHeader target source ++ body) e)
    (hpass : d.checksumPasses e = true) :
    ((d.processNodeEvt e).1.map (nodeEvtCost d o)).sum < nodeEvtCost d o e := by
  obtain ⟨v, (⟨frame, portMask⟩ | ⟨frame, portMask⟩) | ⟨frame, size⟩⟩ := e
  · obtain ⟨hcarry, hports, -⟩ := h
    rw [processNodeEvt_tx hcarry hports, List.map_map]
    have hsum : ((d.net.through v portMask).map fun e =>
        17 * ∑ x, reach d.net.graph o e.2.1 x).sum =
          17 * ∑ x, reaches d o x (v, .l2 (.tx frame portMask)) := by
      simp only [reaches, List.sum_map_mul_left, Worklist.sum_map_sum]
    exact Nat.lt_succ_of_le (Nat.le_of_eq hsum)
  · obtain ⟨hcarry, q, u, p, rfl, hlink, -⟩ := h
    obtain ⟨hpos, hle⟩ := d.net.link_port hlink
    rw [processNodeEvt_rx hcarry hpos (hle.trans (d.net.numPorts_le v))]
    have hreach := sum_reach_eq d.net.graph o v
    simp only [List.map_cons, List.map_nil, List.sum_cons, List.sum_nil, nodeEvtCost]
    omega
  · obtain ⟨hcarry, hsize, q, u, p, rfl, hlink, hchild⟩ := h
    obtain ⟨out, -, hprocess⟩ := processNodeEvt_bcmp htargeted hcarry hsize hpass
    have hreach := sum_reach_eq d.net.graph o v
    have hbelow := sum_reach_forwarded hlink hchild
    have hports := (List.length_filter_le (fun i =>
      Cabling.portNum i != portsByte frame >>> 4 &&& 0xF)
        (List.range (d.net.ctx v).numPorts.toNat)).trans (List.length_range.le.trans
          (d.net.numPorts_le v))
    rw [hprocess]
    by_cases hid : d.nodeId v = target
    · simp only [hid, if_true, List.map_nil, List.sum_nil, nodeEvtCost]
      omega
    · simp only [hid, if_false, List.map_map, Function.comp_def, nodeEvtCost, reaches,
        List.sum_map_add, List.sum_map_mul_left, Worklist.sum_map_sum, hbelow, List.map_const',
        List.sum_replicate, smul_eq_mul, Nat.mul_one]
      omega

end Steps

/-- The event that `bcmp_tx` leads to runs away from the sender by all its ports. -/
theorem bcmpTx_eq {d : Deployment V Callback} {o : V} {taken : Bool} {node : Option Nat}
    {now : UInt32} {type : UInt16} {data : List UInt8} {seqNum : UInt32}
    {replyCb : Option Callback} {evt : V × NodeEvent}
    (h : d.bcmpTx o taken node now type data seqNum replyCb = some evt) :
    ∃ seqNum' frame, Carrying type seqNum' data frame ∧ portsByte frame = 0 ∧
      evt = (o, .l2 (.tx frame
        ((d.net.ctx o).allPortsMask &&& (d.net.ctx o).enabledPortsMask))) := by
  unfold Deployment.bcmpTx at h
  split at h
  case isFalse => exact absurd h (by simp)
  rename_i hsize
  split at h
  · rename_i p' packet hserialize
    rcases serialize_cases (d.registered o) hserialize with
      ⟨herr, -⟩ | ⟨cfg, c, -, -, -, rfl⟩
    · exact absurd rfl herr
    generalize serializeSeqNum (d.packet o) cfg seqNum = seqNum' at h
    obtain rfl := Option.some.inj h
    have hfits : bcmpHeaderSize + data.length < 2 ^ 16 := by
      simp only [heartbeatSize, maxPayloadLen, bcmpHeaderSize] at hsize ⊢
      omega
    let packet : Packet := ⟨llAddr (d.nodeId o), multicastLlAddr, header type c seqNum' ++ data⟩
    let out := (bmIpTxPerform (d.nodeId o) packet (portSpecificDst 0)).set egressIdx 0
    obtain ⟨hcarry, hports⟩ : Carrying type seqNum' data out ∧ portsByte out = 0 :=
      carrying_output rfl (by rw [List.length_append, header_length]) hfits
        (headerType_header _ _ _ _) (headerSeqNum_header _ _ _ _)
        (List.drop_left' (header_length _ _ _))
    refine ⟨seqNum', out, hcarry, hports, ?_⟩
    simp only [Deployment.output, bmL2LinkOutput, bmL2Tx]
    rfl
  · exact absurd h (by simp)

/-- In a tree of nodes, a message for one node that is sent to all neighbors is handled once at its
target and forwarded by every other node it comes to, in 17 steps at most for every node. -/
theorem targeted_message_handled_once [Fintype V] [DecidableEq V] (d : Deployment V Callback)
    (o : V) (type : UInt16) (target source : UInt64) (body : List UInt8)
    (htargeted : Targeted type target) (taken : Bool) (node : Option Nat) (now seqNum : UInt32)
    (replyCb : Option Callback) (evt : V × NodeEvent)
    (hsent : d.bcmpTx o taken node now type (configHeader target source ++ body) seqNum replyCb =
      some evt)
    (ks : List Nat) (hruns : (⟨[evt], []⟩ : Traffic V).RunsWhere d.processNodeEvt
      (fun e => d.checksumPasses e = true) ks) :
    let s := ks.foldl (Worklist.step d.processNodeEvt) ⟨[evt], []⟩
    ks.length < 17 * Fintype.card V ∧
      (∀ v, handlings s v ≤ if d.nodeId v = target ∧ v ≠ o then 1 else 0) ∧
      (s.pending = [] → ∀ v, handlings s v = if d.nodeId v = target ∧ v ≠ o then 1 else 0) ∧
      ∀ e ∈ s.done, e.2 = if d.nodeId e.1 = target then .handled else .forwarded := by
  intro s
  obtain ⟨seqNum', frame, hcarry, hports, rfl⟩ := bcmpTx_eq hsent
  have hall := Cabling.toChildren_root d.isTree o
  have hinit : (∀ e ∈ [(o, NodeEvent.l2 (.tx frame
      ((d.net.ctx o).allPortsMask &&& (d.net.ctx o).enabledPortsMask)))],
      OutwardMessage d o type seqNum' (configHeader target source ++ body) e) ∧
      ∀ s ∈ ([] : List (V × Outcome)),
        s.2 = if d.nodeId s.1 = target then .handled else .forwarded := by
    refine ⟨fun e he => ?_, by simp⟩
    rw [List.mem_singleton.mp he]
    refine ⟨hcarry, hports, fun t ht => ?_⟩
    exact (Cabling.mem_through_children hall t.2.1).mp (List.mem_map_of_mem ht)
  obtain ⟨hlength, -, houtcomes, htotal⟩ := Worklist.run_rule
    (fun e he hpass => processNodeEvt_outward htargeted e he hpass)
    (fun e he hpass => processNodeEvt_cost htargeted e he hpass) hinit hruns
  have howed : ∀ x, d.nodeId x = target →
      (s.pending.map (reaches d o x)).sum + handlings s x = if x = o then 0 else 1 := by
    intro x hx
    have htotal' := htotal (reaches d o x) (fun e => if (x, Outcome.handled) = e then 1 else 0)
      (fun e he hpass => processNodeEvt_reaches htargeted hx e he hpass)
    rw [handlings, Worklist.count_eq_sum, ← beyond_root d.isTree,
      ← Cabling.sum_reach_through d.isTree hall]
    simpa [Worklist.total, reaches, s] using htotal'
  have hother : ∀ x, d.nodeId x ≠ target → handlings s x = 0 := by
    intro x hx
    refine List.count_eq_zero.mpr fun hmem => ?_
    have hout := houtcomes _ hmem
    rw [if_neg hx] at hout
    cases hout
  refine ⟨?_, fun v => ?_, fun hempty v => ?_, houtcomes⟩
  · have hcard := card_eq_beyond d.isTree o
    simp only [List.map_cons, List.map_nil, List.sum_cons, List.sum_nil, nodeEvtCost, reaches,
      Cabling.sum_reach_through d.isTree hall] at hlength
    omega
  · by_cases hv : d.nodeId v = target
    · have hsum := howed v hv
      simp only [hv, true_and, ne_eq, ite_not]
      omega
    · simp [hother v hv]
  · by_cases hv : d.nodeId v = target
    · have hsum := howed v hv
      rw [hempty] at hsum
      simpa [hv] using hsum
    · simp [hother v hv, hv]

/-! ## Three nodes in a row -/

section Row

attribute [local instance] neZero_row

def rowPacket : PacketInfo Processor Unit :=
  (bcmpInit (freshPacketInfo messageGetChecksum) (List.range registrations.length)).getD
    (freshPacketInfo messageGetChecksum)

theorem rowPacket_registered : Registered rowPacket := by
  have hpackets : (freshPacketInfo messageGetChecksum :
    PacketInfo Processor Unit).packetList = .empty := rfl
  obtain ⟨p, hp, -, -, hreg⟩ := bcmpInit_registered hpackets
    (List.nodup_range (n := registrations.length)) List.length_range
  have heq : rowPacket = p := by simp [rowPacket, hp]
  rw [heq]
  exact hreg

def rowDeployment : Deployment (Fin 3) Unit where
  net := rowCabling
  routingCb _ := none
  nodeId v := .ofNat (v + 10)
  packet _ := rowPacket
  isTree := rowCabling_isTree
  nodeId_injective := by decide
  nodeId_ne_zero := by decide
  registered _ := rowPacket_registered

/-- Node 0 asks node 2 for its configuration; node 1 is in between. -/
def getConfig : Option (Fin 3 × NodeEvent) :=
  rowDeployment.bcmpTx 0 true (some 100) 0 ConfigMessage.get.type (configHeader 12 10 ++ [0]) 0 none

theorem targeted_message_handled_once_row : ∃ evt, getConfig = some evt ∧
    let s := List.foldl (Worklist.step rowDeployment.processNodeEvt) ⟨[evt], []⟩
      (List.replicate 6 0)
    6 < 17 * Fintype.card (Fin 3) ∧
      (∀ v, handlings s v ≤ if rowDeployment.nodeId v = 12 ∧ v ≠ 0 then 1 else 0) ∧
      (s.pending = [] → ∀ v, handlings s v = if rowDeployment.nodeId v = 12 ∧ v ≠ 0 then 1 else 0) ∧
      ∀ e ∈ s.done, e.2 = if rowDeployment.nodeId e.1 = 12 then .handled else .forwarded := by
  have hsome : getConfig.isSome = true := by decide +kernel
  have hruns : ∀ evt ∈ getConfig, (⟨[evt], []⟩ : Traffic (Fin 3)).RunsWhere
      rowDeployment.processNodeEvt (fun e => rowDeployment.checksumPasses e = true)
        (List.replicate 6 0) := by decide +kernel
  obtain ⟨evt, hevt⟩ := Option.isSome_iff_exists.mp hsome
  exact ⟨evt, hevt, targeted_message_handled_once rowDeployment 0 ConfigMessage.get.type 12 10 [0]
    (.inl ⟨.get, rfl, rfl⟩) true (some 100) 0 0 none evt hevt (List.replicate 6 0)
      (hruns evt hevt)⟩

/-- Node 0 sets the time of node 0, which is no node. -/
def setTime : Option (Fin 3 × NodeEvent) :=
  rowDeployment.bcmpTx 0 true (some 100) 0 bcmpSystemTimeSetMessage
    (configHeader 0 10 ++ List.replicate 8 0) 0 none

/-- The neighbor of the sender sets its time. -/
theorem setTime_handled : (∀ v, rowDeployment.nodeId v ≠ 0) ∧ ∃ evt ∈ setTime,
    (⟨[evt], []⟩ : Traffic (Fin 3)).RunsWhere rowDeployment.processNodeEvt
      (fun e => rowDeployment.checksumPasses e = true) [0, 0, 0] ∧
    (([0, 0, 0].foldl (Worklist.step rowDeployment.processNodeEvt)
      (⟨[evt], []⟩ : Traffic (Fin 3))).done = [(1, .handled)]) := by
  decide +kernel

end Row

end BmCore.Bcmp
