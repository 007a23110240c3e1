import BmCore.Library.RootedTree
import BmCore.Network.Policy

/-!
# Nodes and cables

The ports of the nodes, and which port of which node a cable leads to. The network device of a node
puts a frame on the cable of one port, or of all its ports, and the frame comes out at the other
end. Two nodes are joined by one cable at most, and every cable is up.
-/
namespace BmCore.Network
open Library

/-! ## Cables -/

structure Cabling (V : Type) where
  ctx : V → BmL2Ctx
  /-- The node and the port at the other end of the cable of a port. -/
  link : V → UInt8 → Option (V × UInt8)
  numPorts_le : ∀ v, (ctx v).numPorts.toNat ≤ 15
  allPorts : ∀ v, (ctx v).allPortsMask = portsMask (ctx v).numPorts.toNat
  link_port : ∀ {v p w q}, link v p = some (w, q) →
    1 ≤ p.toNat ∧ p.toNat ≤ (ctx v).numPorts.toNat
  link_symm : ∀ {v p w q}, link v p = some (w, q) → link w q = some (v, p)
  link_ne : ∀ {v p w q}, link v p = some (w, q) → v ≠ w
  link_single : ∀ {v p p' w q q'}, link v p = some (w, q) → link v p' = some (w, q') → p = p'
  link_up : ∀ {v p w q}, link v p = some (w, q) →
    hasPort (ctx v).enabledPortsMask (p.toNat - 1) = true

namespace Cabling
variable {V : Type} (net : Cabling V)

/-- Nodes with a cable between them. -/
def graph : SimpleGraph V where
  Adj v w := ∃ p q, net.link v p = some (w, q)
  symm := ⟨fun _ _ ⟨p, q, h⟩ => ⟨q, p, net.link_symm h⟩⟩
  loopless := ⟨fun _ ⟨_, _, h⟩ => net.link_ne h rfl⟩

/-- The port with an index. -/
def portNum (portIdx : Nat) : UInt8 := .ofNat (portIdx + 1)

/-- Where a frame comes out that the device of `v` sends by a port; port 0 is every port. -/
def reached (v : V) (port : UInt8) : List (V × UInt8) :=
  if port = 0 then (List.range (net.ctx v).numPorts.toNat).filterMap fun i => net.link v (portNum i)
  else (net.link v port).toList

/-- The frames that come out at other nodes, with the ports they come in by. -/
def arrivals (v : V) (sent : List Sent) : List (V × UInt8 × List UInt8) :=
  sent.flatMap fun s => (net.reached v s.1).map fun e => (e.1, e.2, s.2)

/-- The cables of the ports of a mask: index of the port, and node and port at the other end. -/
def through (v : V) (portMask : UInt16) : List (Nat × V × UInt8) :=
  (List.range (net.ctx v).numPorts.toNat).filterMap fun i =>
    if hasPort portMask i then (net.link v (portNum i)).map fun e => (i, e) else none

theorem portNum_toNat {i : Nat} (h : i < 15) : (portNum i).toNat = i + 1 := by
  rw [portNum, UInt8.toNat_ofNat']
  omega

theorem portNum_pred {p : UInt8} (h : 1 ≤ p.toNat) : portNum (p.toNat - 1) = p := by
  have hport : p.toNat - 1 + 1 = p.toNat := by omega
  simp [portNum, hport]

variable {net} {v : V}

theorem lt_of_mem_ports {i : Nat} (h : i ∈ List.range (net.ctx v).numPorts.toNat) : i < 15 :=
  Nat.lt_of_lt_of_le (List.mem_range.mp h) (net.numPorts_le v)

/-- Frames that leave port by port come out at the ends of the cables of these ports. -/
theorem arrivals_ports (portMask : UInt16) (f : Nat → List UInt8) :
    net.arrivals v (((List.range (net.ctx v).numPorts.toNat).filter (hasPort portMask)).map
      fun i => (.ofNat (i + 1), f i)) =
        (net.through v portMask).map fun e => (e.2.1, e.2.2, f e.1) := by
  have hlist : ∀ is : List Nat, (∀ i ∈ is, i < 15) →
      net.arrivals v ((is.filter (hasPort portMask)).map fun i => (.ofNat (i + 1), f i)) =
        (is.filterMap fun i => if hasPort portMask i then
          (net.link v (portNum i)).map fun e => (i, e) else none).map
            fun e => (e.2.1, e.2.2, f e.1) := by
    intro is his
    induction is with
    | nil => rfl
    | cons i is ih =>
      have hne : portNum i ≠ 0 := by
        intro hzero
        have hport := portNum_toNat (his i List.mem_cons_self)
        rw [hzero] at hport
        exact absurd hport (by simp)
      have hrest := ih fun j hj => his j (List.mem_cons_of_mem _ hj)
      cases hbit : hasPort portMask i with
      | false => simpa [hbit] using hrest
      | true =>
        have hreached : net.reached v (.ofNat (i + 1)) = (net.link v (portNum i)).toList :=
          if_neg hne
        simp only [List.filter_cons, hbit, if_true, List.map_cons, List.filterMap_cons, arrivals,
          List.flatMap_cons, hreached]
        rw [arrivals] at hrest
        rw [hrest]
        cases net.link v (portNum i) <;> rfl
  exact hlist _ fun i hi => lt_of_mem_ports hi

/-- A frame sent by all ports at once comes out at the end of every cable. -/
theorem arrivals_all (frame : List UInt8) : net.arrivals v [(0, frame)] =
    (net.through v (net.ctx v).allPortsMask).map fun e => (e.2.1, e.2.2, frame) := by
  have hlist : ∀ is : List Nat, (∀ i ∈ is, hasPort (net.ctx v).allPortsMask i = true) →
      (is.filterMap fun i => net.link v (portNum i)).map (fun e => (e.1, e.2, frame)) =
        (is.filterMap fun i => if hasPort (net.ctx v).allPortsMask i then
          (net.link v (portNum i)).map fun e => (i, e) else none).map
            fun e => (e.2.1, e.2.2, frame) := by
    intro is his
    induction is with
    | nil => rfl
    | cons i is ih =>
      have hrest := ih fun j hj => his j (List.mem_cons_of_mem _ hj)
      have hbit := his i List.mem_cons_self
      cases hlink : net.link v (portNum i) <;> simpa [hlink, hbit] using hrest
  have hall : ∀ i ∈ List.range (net.ctx v).numPorts.toNat,
      hasPort (net.ctx v).allPortsMask i = true := by
    intro i hi
    rw [net.allPorts, hasPort_portsMask (net.numPorts_le v)]
    simpa using hi
  simpa [arrivals, reached, through] using hlist _ hall

/-- A port mask that leads to the children of a node, seen from `o`, and nowhere else. -/
def ToChildren (net : Cabling V) (o v : V) (portMask : UInt16) : Prop :=
  ∀ p w q, net.link v p = some (w, q) →
    (hasPort portMask (p.toNat - 1) = true ↔ Child net.graph o v w)

theorem mem_through {portMask : UInt16} {e : Nat × V × UInt8} : e ∈ net.through v portMask ↔
    e.1 < (net.ctx v).numPorts.toNat ∧ hasPort portMask e.1 = true ∧
      net.link v (portNum e.1) = some e.2 := by
  obtain ⟨i, w, q⟩ := e
  simp only [through, List.mem_filterMap, List.mem_range]
  constructor
  · rintro ⟨j, hj, hsome⟩
    split at hsome
    · rename_i hbit
      obtain ⟨⟨w', q'⟩, hlink, heq⟩ := Option.map_eq_some_iff.mp hsome
      obtain ⟨rfl, rfl, rfl⟩ : j = i ∧ w' = w ∧ q' = q := by simpa using heq
      exact ⟨hj, hbit, hlink⟩
    · exact absurd hsome (by simp)
  · rintro ⟨hi, hbit, hlink⟩
    exact ⟨i, hi, by simp [hbit, hlink]⟩

variable {o : V} {portMask : UInt16}

theorem mem_through_children (h : net.ToChildren o v portMask) (w : V) :
    w ∈ (net.through v portMask).map (·.2.1) ↔ Child net.graph o v w := by
  constructor
  · intro hmem
    obtain ⟨e, he, rfl⟩ := List.mem_map.mp hmem
    obtain ⟨hi, hbit, hlink⟩ := mem_through.mp he
    have hport := portNum_toNat (Nat.lt_of_lt_of_le hi (net.numPorts_le v))
    refine (h _ _ _ hlink).mp ?_
    rw [hport]
    exact hbit
  · intro hchild
    obtain ⟨p, q, hlink⟩ := hchild.1
    obtain ⟨hpos, hle⟩ := net.link_port hlink
    refine List.mem_map.mpr ⟨(p.toNat - 1, w, q), mem_through.mpr ⟨by omega, ?_, ?_⟩, rfl⟩
    · exact (h p w q hlink).mpr hchild
    · rw [portNum_pred hpos]
      exact hlink

/-- Different ports lead to different nodes. -/
theorem nodup_through (portMask : UInt16) : ((net.through v portMask).map (·.2.1)).Nodup := by
  have hports : (net.through v portMask).Nodup := by
    refine List.Nodup.filterMap ?_ List.nodup_range
    intro i j e hi hj
    have hfst : ∀ {k}, e ∈ (if hasPort portMask k then
        (net.link v (portNum k)).map fun e => (k, e) else none) → e.1 = k := by
      intro k hk
      split at hk
      · obtain ⟨e', -, rfl⟩ := Option.map_eq_some_iff.mp hk
        rfl
      · exact absurd hk (by simp)
    exact (hfst hi).symm.trans (hfst hj)
  refine hports.map_on ?_
  rintro ⟨i, w, q⟩ hi ⟨j, w', q'⟩ hj heq
  obtain ⟨hlti, -, hlinki⟩ := mem_through.mp hi
  obtain ⟨hltj, -, hlinkj⟩ := mem_through.mp hj
  obtain rfl : w = w' := heq
  have hport : portNum i = portNum j := net.link_single hlinki hlinkj
  have hle := net.numPorts_le v
  have hnat := congrArg UInt8.toNat hport
  rw [portNum_toNat (by omega), portNum_toNat (by omega)] at hnat
  obtain rfl : i = j := by omega
  exact Prod.ext rfl (Option.some.inj (hlinki.symm.trans hlinkj))

/-- The frames that leave by a mask towards the children reach what is strictly below a node. -/
theorem sum_reach_through (htree : net.graph.IsTree) (h : net.ToChildren o v portMask) (x : V) :
    ((net.through v portMask).map fun e => reach net.graph o e.2.1 x).sum =
      beyond net.graph o v x := by
  have hsum := sum_reach_children htree (nodup_through portMask) (mem_through_children h) x
  rwa [List.map_map] at hsum

/-- All ports lead from the root to its children. -/
theorem toChildren_root (htree : net.graph.IsTree) (o : V) :
    net.ToChildren o o ((net.ctx o).allPortsMask &&& (net.ctx o).enabledPortsMask) := by
  intro p w q hlink
  obtain ⟨hpos, hle⟩ := net.link_port hlink
  have hchild : Child net.graph o o w := by
    rcases child_or_child htree o (⟨p, q, hlink⟩ : net.graph.Adj o w) with h | h
    · exact h
    · exact absurd h not_child_root
  refine iff_of_true ?_ hchild
  rw [hasPort_and, net.link_up hlink, net.allPorts, hasPort_portsMask (net.numPorts_le o)]
  simp only [Bool.and_true, decide_eq_true_eq]
  omega

/-- A port other than the one towards the root leads to a child. -/
theorem child_of_ne_port (htree : net.graph.IsTree) {u w : V} {p q p' q' : UInt8}
    (hlink : net.link v q = some (u, p)) (hchild : Child net.graph o u v)
    (hlink' : net.link v p' = some (w, q')) (hne : p' ≠ q) : Child net.graph o v w := by
  rcases child_or_child htree o (⟨p', q', hlink'⟩ : net.graph.Adj v w) with h | h
  · exact h
  · -- the other neighbor on the way to the root would be a second parent
    obtain rfl := h.unique htree hchild
    exact absurd (net.link_single hlink' hlink) hne

/-- All ports but the one towards the root lead to the children of a node. -/
theorem toChildren_inner (htree : net.graph.IsTree) {u : V} {p q : UInt8}
    (hlink : net.link v q = some (u, p)) (hchild : Child net.graph o u v) :
    net.ToChildren o v (((net.ctx v).allPortsMask &&& ~~~ rxPortMask q) &&&
      (net.ctx v).enabledPortsMask) := by
  intro p' w q' hlink'
  obtain ⟨hpos, hle⟩ := net.link_port hlink'
  obtain ⟨hposq, hleq⟩ := net.link_port hlink
  have hmax := net.numPorts_le v
  rw [hasPort_and, hasPort_and, hasPort_not (by omega), net.link_up hlink', net.allPorts,
    hasPort_portsMask hmax, hasPort_rxPortMask (by omega)]
  have hin : p'.toNat - 1 < (net.ctx v).numPorts.toNat := by omega
  simp only [hin, decide_true, Bool.true_and, Bool.and_true, Bool.not_eq_true',
    decide_eq_false_iff_not]
  constructor
  · intro hne
    refine child_of_ne_port htree hlink hchild hlink' fun heq => hne ?_
    rw [heq]
  · intro hw heq
    have hport : q = p' := UInt8.toNat_inj.mp (by omega)
    subst hport
    obtain ⟨rfl, -⟩ := Prod.mk.inj (Option.some.inj (hlink.symm.trans hlink'))
    exact hw.not_symm hchild

/-- A mask of one port leads along the cable of that port. -/
theorem through_onePort {i : Nat} (hi : i < (net.ctx v).numPorts.toNat) :
    net.through v (.ofNat (2 ^ i) &&& (net.ctx v).enabledPortsMask) =
      (net.link v (portNum i)).toList.map fun e => (i, e) := by
  have hmax := net.numPorts_le v
  have hpow : (UInt16.ofNat (2 ^ i)).toNat = 2 ^ i := by
    rw [UInt16.toNat_ofNat']
    exact Nat.mod_eq_of_lt (Nat.pow_lt_pow_right (by omega) (by omega))
  have hbit : ∀ j, hasPort (.ofNat (2 ^ i) &&& (net.ctx v).enabledPortsMask) j =
      (decide (i = j) && hasPort (net.ctx v).enabledPortsMask j) := by
    intro j
    rw [hasPort_and, hasPort, hpow, Nat.testBit_two_pow]
  have hlist : ∀ n, (List.range n).filterMap (fun j =>
      if hasPort (.ofNat (2 ^ i) &&& (net.ctx v).enabledPortsMask) j then
        (net.link v (portNum j)).map fun e => (j, e) else none) =
      if i < n then (net.link v (portNum i)).toList.map fun e => (i, e) else [] := by
    intro n
    induction n with
    | zero => rfl
    | succ n ih =>
      rw [List.range_succ, List.filterMap_append, ih]
      by_cases hin : i = n
      · subst hin
        cases hlink : net.link v (portNum i) with
        | none => simp [hlink]
        | some e =>
          have hup := net.link_up hlink
          rw [portNum_toNat (by omega), Nat.add_sub_cancel] at hup
          simp [hbit, hup, hlink]
      · have hzero : hasPort (.ofNat (2 ^ i) &&& (net.ctx v).enabledPortsMask) n = false := by
          rw [hbit, decide_eq_false hin, Bool.false_and]
        have hlt : i < n + 1 ↔ i < n := by omega
        simp [hzero, hlt]
  rw [through, hlist, if_pos hi]

/-- A frame for every port but one goes where one frame for all these ports goes. -/
theorem sum_onePort {q : UInt8} (hpos : 1 ≤ q.toNat) (hle : q.toNat ≤ 15) (f : V → Nat) :
    (((List.range (net.ctx v).numPorts.toNat).filter fun i => portNum i != q).map fun i =>
      ((net.through v (.ofNat (2 ^ i) &&& (net.ctx v).enabledPortsMask)).map
        fun e => f e.2.1).sum).sum =
      ((net.through v (((net.ctx v).allPortsMask &&& ~~~ rxPortMask q) &&&
        (net.ctx v).enabledPortsMask)).map fun e => f e.2.1).sum := by
  have hmax := net.numPorts_le v
  have hlist : ∀ is : List Nat, (∀ i ∈ is, i < (net.ctx v).numPorts.toNat) →
      ((is.filter fun i => portNum i != q).map fun i =>
        ((net.through v (.ofNat (2 ^ i) &&& (net.ctx v).enabledPortsMask)).map
          fun e => f e.2.1).sum).sum =
        ((is.filterMap fun i => if hasPort (((net.ctx v).allPortsMask &&& ~~~ rxPortMask q) &&&
          (net.ctx v).enabledPortsMask) i then (net.link v (portNum i)).map fun e => (i, e)
            else none).map fun e => f e.2.1).sum := by
    intro is his
    induction is with
    | nil => rfl
    | cons i is ih =>
      have hi := his i List.mem_cons_self
      have hrest := ih fun j hj => his j (List.mem_cons_of_mem _ hj)
      have hport := portNum_toNat (Nat.lt_of_lt_of_le hi hmax)
      have hbit : hasPort (((net.ctx v).allPortsMask &&& ~~~ rxPortMask q) &&&
          (net.ctx v).enabledPortsMask) i =
            ((portNum i != q) && hasPort (net.ctx v).enabledPortsMask i) := by
        rw [hasPort_and, hasPort_and, hasPort_not (by omega), net.allPorts,
          hasPort_portsMask hmax, hasPort_rxPortMask hle, decide_eq_true hi, Bool.true_and]
        congr 1
        rw [Bool.eq_iff_iff]
        simp only [Bool.not_eq_true', decide_eq_false_iff_not, bne_iff_ne, ne_eq,
          ← UInt8.toNat_inj, hport]
        omega
      cases hother : portNum i != q with
      | false => simpa [hother, hbit] using hrest
      | true =>
        cases hlink : net.link v (portNum i) with
        | none => simpa [hother, hlink, through_onePort hi] using hrest
        | some e =>
          have hup := net.link_up hlink
          rw [hport, Nat.add_sub_cancel] at hup
          simpa [hother, hlink, hbit, hup, through_onePort hi] using hrest
  exact hlist _ fun i hi => List.mem_range.mp hi

end Cabling

end BmCore.Network
