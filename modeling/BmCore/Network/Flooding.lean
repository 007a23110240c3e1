import BmCore.Library.Worklist
import BmCore.Network.Cabling

/-!
# Flooding of global multicast

A tree of nodes, each with a queue of link layer events. A frame that a node sends by all its ports
is received by its neighbors, who submit it and send it on by all other ports. The nodes take the
events of their queues in any order.

Seen from the originator, the frame runs away from it: every event is at a node that the frame has
come to from its parent, or that forwards it to its children. What an event still has to bring
about, below its node, is brought about once.
-/
namespace BmCore.Network
open Library

variable {V : Type}

/-! ## The machine -/

/-- `L2QueueElement` with a frame. -/
inductive L2Event where
  | tx (frame : List UInt8) (portMask : UInt16)
  | rx (frame : List UInt8) (portMask : UInt16)

/-- The queues of all nodes, and what they have submitted to their IP stacks. -/
abbrev Flood (V : Type) := Worklist (V × L2Event) (V × List UInt8)

section Machine
variable (net : Cabling V) (routingCb : V → Option L2LinkLocalRoutingCb)

/-- The events that an event of a node leads to, with what the node submits. -/
def processEvt : V × L2Event → List (V × L2Event) × List (V × List UInt8)
  | (v, .tx frame portMask) =>
    ((net.arrivals v (bmL2ProcessTxEvt (net.ctx v) frame portMask)).map fun a =>
      (a.1, .rx a.2.2 (rxPortMask a.2.1)), [])
  | (v, .rx frame portMask) =>
    let out := bmL2ProcessRxEvt (net.ctx v) (routingCb v) true frame portMask
    (out.forwarded.toList.map fun f => (v, .tx f.1 f.2), out.submitted.toList.map fun f => (v, f))

/-- Node `o` has given a frame to `bm_l2_link_output`. -/
def floodFrom (o : V) (frame : List UInt8) : Flood V :=
  ⟨[(o, .tx (bmL2LinkOutput (net.ctx o) frame).1 (bmL2LinkOutput (net.ctx o) frame).2)], []⟩

end Machine

/-- How often a node has submitted a frame. -/
def submissions [DecidableEq V] (s : Flood V) (v : V) : Nat := (s.done.map Prod.fst).count v

/-! ## Frames -/

/-- An IPv6 frame to a global multicast address. -/
structure GlobalFrame (frame : List UInt8) : Prop where
  length : frameHdrLen ≤ frame.length
  ethertype : ethernetGetType frame = ethernetTypeIpv6
  dst : isGlobalMulticast (dstIp frame) = true

theorem GlobalFrame.setPortsByte {frame : List UInt8} (h : GlobalFrame frame) (v : UInt8) :
    GlobalFrame (setPortsByte frame v) :=
  ⟨by rw [setPortsByte_length]; exact h.length, by simpa using h.ethertype, by simpa using h.dst⟩

/-- The frame with the ports in its source address changed. -/
def CopyOf (sent frame : List UInt8) : Prop := ∃ v, frame = setPortsByte sent v

theorem CopyOf.setPortsByte {sent frame : List UInt8} (h : CopyOf sent frame) (v : UInt8) :
    CopyOf sent (setPortsByte frame v) := by
  obtain ⟨u, rfl⟩ := h
  exact ⟨v, by simp⟩

theorem CopyOf.globalFrame {sent frame : List UInt8} (hs : GlobalFrame sent)
    (h : CopyOf sent frame) : GlobalFrame frame := by
  obtain ⟨u, rfl⟩ := h
  exact hs.setPortsByte u

theorem bmL2ProcessTxEvt_global {frame : List UInt8} (h : GlobalFrame frame) (ctx : BmL2Ctx)
    (portMask : UInt16) :
    bmL2ProcessTxEvt ctx frame portMask = sendGlobalMulticastPacket ctx frame portMask :=
  if_pos h.dst

/-- A global multicast frame is submitted, and forwarded by all ports but the one it came by. -/
theorem bmL2ProcessRxEvt_global {frame : List UInt8} (h : GlobalFrame frame) (ctx : BmL2Ctx)
    (routingCb : Option L2LinkLocalRoutingCb) {q : UInt8} (hpos : 1 ≤ q.toNat)
    (hle : q.toNat ≤ 15) :
    bmL2ProcessRxEvt ctx routingCb true frame (rxPortMask q) =
      { forwarded := if ctx.allPortsMask &&& ~~~ rxPortMask q ≠ 0 then
          some (clearPorts frame,
            (ctx.allPortsMask &&& ~~~ rxPortMask q) &&& ctx.enabledPortsMask) else none
        submitted := some (setPortsByte frame (setIngressNibble (portsByte frame) q)) } := by
  have hport : ffs (rxPortMask q) = q := ffs_rxPortMask hpos hle
  have hne : q ≠ 0 := by
    rintro rfl
    exact absurd hpos (by decide)
  have hglobal := (h.setPortsByte (setIngressNibble (portsByte frame) q)).dst
  have hlength : frameHdrLen ≤
      (setPortsByte frame (setIngressNibble (portsByte frame) q)).length := by
    rw [setPortsByte_length]
    exact h.length
  have happly : bmL2PolicyRxApply frame (rxPortMask q) ctx.allPortsMask routingCb =
      (⟨true, ctx.allPortsMask &&& ~~~ rxPortMask q, q⟩,
        setPortsByte frame (setIngressNibble (portsByte frame) q)) := by
    unfold bmL2PolicyRxApply
    rw [if_neg (Nat.not_lt.mpr h.length), if_neg (by simp [h.ethertype])]
    simp only [hport, if_neg hne, hglobal, if_true]
  unfold bmL2ProcessRxEvt
  rw [happly]
  simp only [and_true, if_true, bmL2Tx]
  rw [bmL2PolicyPrepareForwardedCopy_eq hlength]
  simp [clearPorts]

/-! ## What the events have to bring about -/

section Events
variable (net : Cabling V) (o : V) (sent : List UInt8)

/-- The frame runs away from `o`: it is sent by ports that lead to children, and comes in from the
parent. -/
def Outward : V × L2Event → Prop
  | (v, .tx frame portMask) => CopyOf sent frame ∧ net.ToChildren o v portMask
  | (v, .rx frame portMask) => CopyOf sent frame ∧ ∃ q u p, portMask = rxPortMask q ∧
    net.link v q = some (u, p) ∧ Child net.graph o u v

/-- 1 for the nodes that are to submit the frame because of an event. -/
noncomputable def owes (x : V) : V × L2Event → Nat
  | (v, .tx _ _) => beyond net.graph o v x
  | (v, .rx _ _) => reach net.graph o v x

/-- Two steps for every node that is to submit the frame, and one to send it. -/
noncomputable def evtCost [Fintype V] : V × L2Event → Nat
  | (v, .tx _ _) => 2 * ∑ x, beyond net.graph o v x + 1
  | (v, .rx _ _) => 2 * ∑ x, reach net.graph o v x

end Events

section Steps
variable {net : Cabling V} {o v : V} {sent frame : List UInt8} {portMask : UInt16}

/-- A transmit event makes every child receive the frame. -/
theorem processEvt_tx (routingCb : V → Option L2LinkLocalRoutingCb) (hs : GlobalFrame sent)
    (hcopy : CopyOf sent frame) :
    processEvt net routingCb (v, .tx frame portMask) =
      ((net.through v portMask).map fun e => (e.2.1, .rx frame (rxPortMask e.2.2)), []) := by
  have hsend : net.arrivals v (sendGlobalMulticastPacket (net.ctx v) frame portMask) =
      (net.through v portMask).map fun e => (e.2.1, e.2.2, frame) := by
    unfold sendGlobalMulticastPacket
    split
    · rename_i hall
      rw [hall, Cabling.arrivals_all]
    · exact Cabling.arrivals_ports portMask fun _ => frame
  simp only [processEvt, bmL2ProcessTxEvt_global (hcopy.globalFrame hs), hsend, List.map_map]
  rfl

/-- A receive event makes the node submit the frame, and send it on if there is a port for it. -/
theorem processEvt_rx (routingCb : V → Option L2LinkLocalRoutingCb) (hs : GlobalFrame sent)
    (hcopy : CopyOf sent frame) {q : UInt8} (hpos : 1 ≤ q.toNat) (hle : q.toNat ≤ 15) :
    processEvt net routingCb (v, .rx frame (rxPortMask q)) =
      (if (net.ctx v).allPortsMask &&& ~~~ rxPortMask q ≠ 0 then
        [(v, .tx (clearPorts frame) (((net.ctx v).allPortsMask &&& ~~~ rxPortMask q) &&&
          (net.ctx v).enabledPortsMask))] else [],
      [(v, setPortsByte frame (setIngressNibble (portsByte frame) q))]) := by
  simp only [processEvt, bmL2ProcessRxEvt_global (hcopy.globalFrame hs) _ _ hpos hle]
  split <;> rfl

theorem processEvt_outward (routingCb : V → Option L2LinkLocalRoutingCb) (htree : net.graph.IsTree)
    (hs : GlobalFrame sent) (e : V × L2Event) (h : Outward net o sent e) :
    (∀ e' ∈ (processEvt net routingCb e).1, Outward net o sent e') ∧
      ∀ s ∈ (processEvt net routingCb e).2, CopyOf sent s.2 := by
  obtain ⟨v, ⟨frame, portMask⟩ | ⟨frame, portMask⟩⟩ := e
  · obtain ⟨hcopy, hmask⟩ := h
    rw [processEvt_tx routingCb hs hcopy]
    refine ⟨fun e' he' => ?_, by simp⟩
    obtain ⟨t, ht, rfl⟩ := List.mem_map.mp he'
    have hchild := (Cabling.mem_through_children hmask t.2.1).mp (List.mem_map_of_mem ht)
    have hlink := net.link_symm (Cabling.mem_through.mp ht).2.2
    exact ⟨hcopy, t.2.2, v, _, rfl, hlink, hchild⟩
  · obtain ⟨hcopy, q, u, p, rfl, hlink, hchild⟩ := h
    obtain ⟨hpos, hle⟩ := net.link_port hlink
    rw [processEvt_rx routingCb hs hcopy hpos (hle.trans (net.numPorts_le v))]
    refine ⟨fun e' he' => ?_, fun s hsub => ?_⟩
    · split at he'
      · rw [List.mem_singleton.mp he']
        exact ⟨hcopy.setPortsByte 0, Cabling.toChildren_inner htree hlink hchild⟩
      · exact absurd he' List.not_mem_nil
    · rw [List.mem_singleton.mp hsub]
      exact hcopy.setPortsByte _

/-- Without a port to send the frame on there is nothing below the node. -/
theorem beyond_of_no_port (htree : net.graph.IsTree) {u : V} {p q : UInt8}
    (hlink : net.link v q = some (u, p)) (hchild : Child net.graph o u v)
    (hnone : (net.ctx v).allPortsMask &&& ~~~ rxPortMask q = 0) (x : V) :
    beyond net.graph o v x = 0 := by
  have hmask := Cabling.toChildren_inner htree hlink hchild
  rw [hnone, UInt16.zero_and] at hmask
  rw [← Cabling.sum_reach_through htree hmask x]
  have hempty : net.through v 0 = [] := by
    rw [List.eq_nil_iff_forall_not_mem]
    intro e he
    simpa [hasPort] using (Cabling.mem_through.mp he).2.1
  rw [hempty]
  rfl

/-- A node submits the frame or hands on what is owed below it. -/
theorem processEvt_owes (routingCb : V → Option L2LinkLocalRoutingCb) (htree : net.graph.IsTree)
    (hs : GlobalFrame sent) [DecidableEq V] (x : V) (e : V × L2Event) (h : Outward net o sent e) :
    ((processEvt net routingCb e).1.map (owes net o x)).sum +
      ((processEvt net routingCb e).2.map fun s => if x = s.1 then 1 else 0).sum =
        owes net o x e := by
  obtain ⟨v, ⟨frame, portMask⟩ | ⟨frame, portMask⟩⟩ := e
  · obtain ⟨hcopy, hmask⟩ := h
    rw [processEvt_tx routingCb hs hcopy, List.map_map]
    exact Cabling.sum_reach_through htree hmask x
  · obtain ⟨hcopy, q, u, p, rfl, hlink, hchild⟩ := h
    obtain ⟨hpos, hle⟩ := net.link_port hlink
    rw [processEvt_rx routingCb hs hcopy hpos (hle.trans (net.numPorts_le v))]
    have hreach := reach_eq (G := net.graph) (o := o) v x
    by_cases hnone : (net.ctx v).allPortsMask &&& ~~~ rxPortMask q = 0
    · have hzero := beyond_of_no_port htree hlink hchild hnone x
      simp only [hnone, ne_eq, not_true, if_false, List.map_nil, List.sum_nil, List.map_cons,
        List.sum_cons, owes]
      grind
    · simp only [hnone, ne_eq, not_false_iff, if_true, List.map_nil, List.sum_nil, List.map_cons,
        List.sum_cons, owes]
      grind

theorem processEvt_cost [Fintype V] (routingCb : V → Option L2LinkLocalRoutingCb)
    (htree : net.graph.IsTree) (hs : GlobalFrame sent) (e : V × L2Event)
    (h : Outward net o sent e) :
    ((processEvt net routingCb e).1.map (evtCost net o)).sum < evtCost net o e := by
  obtain ⟨v, ⟨frame, portMask⟩ | ⟨frame, portMask⟩⟩ := e
  · obtain ⟨hcopy, hmask⟩ := h
    rw [processEvt_tx routingCb hs hcopy, List.map_map]
    have hsum : ((net.through v portMask).map fun e => 2 * ∑ x, reach net.graph o e.2.1 x).sum =
        2 * ∑ x, beyond net.graph o v x := by
      simp only [← Cabling.sum_reach_through htree hmask, List.sum_map_mul_left,
        Worklist.sum_map_sum]
    exact Nat.lt_succ_of_le (Nat.le_of_eq hsum)
  · obtain ⟨hcopy, q, u, p, rfl, hlink, hchild⟩ := h
    obtain ⟨hpos, hle⟩ := net.link_port hlink
    rw [processEvt_rx routingCb hs hcopy hpos (hle.trans (net.numPorts_le v))]
    have hreach := sum_reach_eq net.graph o v
    split <;> simp only [List.map_cons, List.map_nil, List.sum_cons, List.sum_nil, evtCost] <;>
      omega

/-- Clearing the egress port that an application has set leaves the frame global multicast. -/
theorem GlobalFrame.clearEgress (h : GlobalFrame frame) : GlobalFrame (frame.set egressIdx 0) := by
  refine ⟨by simpa using h.length, ?_, ?_⟩
  · rw [ethernetGetType, uint8ToUint16_set (by decide) (by decide)]
    exact h.ethertype
  · have hdst := h.dst
    unfold isGlobalMulticast at hdst ⊢
    rw [byte_dstIp _ (by omega), byte_dstIp _ (by omega), byte_dstIp _ (by omega)] at hdst ⊢
    rwa [byte_set_ne (by decide), byte_set_ne (by decide), byte_set_ne (by decide)]

/-- The frame as `bm_l2_link_output` sends it. -/
def outputFrame (frame : List UInt8) : List UInt8 := frame.set egressIdx 0

end Steps

theorem submissions_eq_sum [DecidableEq V] (s : Flood V) (v : V) :
    submissions s v = (s.done.map fun e => if v = e.1 then 1 else 0).sum := by
  rw [submissions, Worklist.count_eq_sum, List.map_map]
  rfl

/-- In a tree of nodes, a global multicast frame that is sent by all ports is submitted once at
every other node and never at its originator, after fewer than two steps for every node. -/
theorem global_multicast_flooding [Fintype V] [DecidableEq V] (net : Cabling V)
    (htree : net.graph.IsTree) (routingCb : V → Option L2LinkLocalRoutingCb) (o : V)
    (frame : List UInt8) (hframe : GlobalFrame frame)
    (hall : ¬ (0 < byte frame egressIdx ∧ byte frame egressIdx ≤ (net.ctx o).numPorts))
    (ks : List Nat) (hruns : (floodFrom net o frame).Runs (processEvt net routingCb) ks) :
    let s := ks.foldl (Worklist.step (processEvt net routingCb)) (floodFrom net o frame)
    ks.length < 2 * Fintype.card V ∧
      (∀ v, submissions s v ≤ if v = o then 0 else 1) ∧
      (s.pending = [] → ∀ v, submissions s v = if v = o then 0 else 1) ∧
      ∀ e ∈ s.done, CopyOf (outputFrame frame) e.2 := by
  intro s
  have hsent : GlobalFrame (outputFrame frame) := hframe.clearEgress
  have hself : CopyOf (outputFrame frame) (outputFrame frame) := ⟨_, (set_byte_self _ _).symm⟩
  have hstart : floodFrom net o frame = ⟨[(o, .tx (outputFrame frame)
      ((net.ctx o).allPortsMask &&& (net.ctx o).enabledPortsMask))], []⟩ := by
    simp only [floodFrom, bmL2LinkOutput, linkOutputMask, if_neg hall, bmL2Tx]
    rfl
  have hinit : (∀ e ∈ (floodFrom net o frame).pending, Outward net o (outputFrame frame) e) ∧
      ∀ e ∈ (floodFrom net o frame).done, CopyOf (outputFrame frame) e.2 := by
    rw [hstart]
    refine ⟨fun e he => ?_, by simp⟩
    rw [List.mem_singleton.mp he]
    exact ⟨hself, Cabling.toChildren_root htree o⟩
  obtain ⟨hlength, -, hcopies, htotal⟩ := Worklist.run_rule
    (fun e he _ => processEvt_outward routingCb htree hsent e he)
    (fun e he _ => processEvt_cost routingCb htree hsent e he) hinit hruns
  have howed : ∀ x, (s.pending.map (owes net o x)).sum + submissions s x =
      if x = o then 0 else 1 := by
    intro x
    have hx := htotal (owes net o x) (fun e => if x = e.1 then 1 else 0)
      (fun e he _ => processEvt_owes routingCb htree hsent x e he)
    rw [hstart] at hx
    rw [submissions_eq_sum, ← beyond_root htree]
    simpa [Worklist.total, owes, s, hstart] using hx
  refine ⟨?_, fun v => ?_, fun hempty v => ?_, hcopies⟩
  · have hcard := card_eq_beyond htree o
    rw [hstart] at hlength
    simp only [List.map_cons, List.map_nil, List.sum_cons, List.sum_nil, evtCost] at hlength
    omega
  · have hv := howed v
    omega
  · have hv := howed v
    rw [hempty] at hv
    simpa using hv

/-! ## Three nodes in a row -/

section Row

/-- The row has a node 0. -/
theorem neZero_row : NeZero 3 := ⟨by decide⟩

attribute [local instance] neZero_row

/-- Port 1 of nodes 0 and 2 leads to node 1, which has them at its ports 1 and 2. -/
def rowLink : Fin 3 → UInt8 → Option (Fin 3 × UInt8)
  | 0, 1 => some (1, 1)
  | 1, 1 => some (0, 1)
  | 1, 2 => some (2, 1)
  | 2, 1 => some (1, 2)
  | _, _ => none

def rowLinks : List (Fin 3 × UInt8 × Fin 3 × UInt8) :=
  [(0, 1, 1, 1), (1, 1, 0, 1), (1, 2, 2, 1), (2, 1, 1, 2)]

theorem rowLink_mem {v w : Fin 3} {p q : UInt8} (h : rowLink v p = some (w, q)) :
    (v, p, w, q) ∈ rowLinks := by
  unfold rowLink at h
  split at h <;> simp_all [rowLinks]

theorem forall_rowLinks {P : Fin 3 × UInt8 × Fin 3 × UInt8 → Prop}
    (h : P (0, 1, 1, 1) ∧ P (1, 1, 0, 1) ∧ P (1, 2, 2, 1) ∧ P (2, 1, 1, 2)) : ∀ e ∈ rowLinks,
    P e := by
  simpa [rowLinks] using h

/-- Every node has two ports. -/
def rowCtx (v : Fin 3) : BmL2Ctx := ⟨2, 3, if v = 1 then 3 else 1⟩

def rowCabling : Cabling (Fin 3) where
  ctx := rowCtx
  link := rowLink
  numPorts_le := by decide
  allPorts := by decide
  link_port h := by
    have hall : ∀ e ∈ rowLinks, 1 ≤ e.2.1.toNat ∧ e.2.1.toNat ≤ (rowCtx e.1).numPorts.toNat :=
      forall_rowLinks (by decide)
    exact hall _ (rowLink_mem h)
  link_symm h := by
    have hall : ∀ e ∈ rowLinks, rowLink e.2.2.1 e.2.2.2 = some (e.1, e.2.1) :=
      forall_rowLinks (by decide)
    exact hall _ (rowLink_mem h)
  link_ne h := by
    have hall : ∀ e ∈ rowLinks, e.1 ≠ e.2.2.1 := forall_rowLinks (by decide)
    exact hall _ (rowLink_mem h)
  link_single h h' := by
    have hall : ∀ e ∈ rowLinks, ∀ e' ∈ rowLinks, e.1 = e'.1 → e.2.2.1 = e'.2.2.1 →
        e.2.1 = e'.2.1 := by
      refine forall_rowLinks ⟨?_, ?_, ?_, ?_⟩ <;> exact forall_rowLinks (by decide)
    exact hall _ (rowLink_mem h) _ (rowLink_mem h') rfl rfl
  link_up h := by
    have hall : ∀ e ∈ rowLinks,
        hasPort (rowCtx e.1).enabledPortsMask (e.2.1.toNat - 1) = true :=
      forall_rowLinks (by decide)
    have hport := hall _ (rowLink_mem h)
    exact hport

theorem rowCabling_adj (v w : Fin 3) : rowCabling.graph.Adj v w ↔
    v = 0 ∧ w = 1 ∨ v = 1 ∧ w = 0 ∨ v = 1 ∧ w = 2 ∨ v = 2 ∧ w = 1 := by
  constructor
  · rintro ⟨p, q, h⟩
    have hmem := rowLink_mem h
    simp only [rowLinks, List.mem_cons, Prod.mk.injEq, List.not_mem_nil, or_false] at hmem
    grind
  · rintro (⟨rfl, rfl⟩ | ⟨rfl, rfl⟩ | ⟨rfl, rfl⟩ | ⟨rfl, rfl⟩)
    · exact ⟨1, 1, rfl⟩
    · exact ⟨1, 1, rfl⟩
    · exact ⟨2, 1, rfl⟩
    · exact ⟨1, 2, rfl⟩

theorem rowCabling_isTree : rowCabling.graph.IsTree := by
  have hadj : ∀ v, v ≠ 1 → rowCabling.graph.Adj 1 v := by
    intro v hv
    rw [rowCabling_adj]
    fin_cases v <;> simp_all
  have hreach : ∀ v, rowCabling.graph.Reachable 1 v := by
    intro v
    by_cases hv : v = 1
    · exact hv ▸ .refl _
    · exact (hadj v hv).reachable
  have hedges : rowCabling.graph.edgeSet = {s(0, 1), s(1, 2)} := by
    ext e
    induction e with
    | _ v w =>
      rw [SimpleGraph.mem_edgeSet, rowCabling_adj]
      fin_cases v <;> fin_cases w <;> simp
  rw [SimpleGraph.isTree_iff_connected_and_card]
  refine ⟨⟨fun v w => (hreach v).symm.trans (hreach w)⟩, ?_⟩
  rw [hedges, Nat.card_coe_set_eq, Set.ncard_pair (by decide)]
  simp

/-- An empty message to FF03::1. -/
def globalFrame : List UInt8 :=
  List.replicate 12 0 ++ [0x86, 0xDD] ++ List.replicate 24 0 ++ [0xFF, 0x03] ++
    List.replicate 13 0 ++ [0x01]

/-- The last step is that of node 2, which has no other cable to send the frame on. -/
theorem global_multicast_flooding_row :
    let s := [0, 0, 0, 0, 0].foldl (Worklist.step (processEvt rowCabling fun _ => none))
      (floodFrom rowCabling 0 globalFrame)
    5 < 2 * Fintype.card (Fin 3) ∧
      (∀ v, submissions s v ≤ if v = 0 then 0 else 1) ∧
      (s.pending = [] → ∀ v, submissions s v = if v = 0 then 0 else 1) ∧
      ∀ e ∈ s.done, CopyOf (outputFrame globalFrame) e.2 :=
  global_multicast_flooding rowCabling rowCabling_isTree (fun _ => none) 0 globalFrame
    ⟨by decide, by decide, by decide⟩ (by decide) [0, 0, 0, 0, 0] (by decide +kernel)

end Row

end BmCore.Network
