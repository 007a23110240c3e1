import BmCore.Integrations.TopologyList

/-!
# The events of a session

What the handlers of the event task do to the list. `INSERT_BEFORE` decides on which side of the
cursor the list grows, so the list is seen from the cursor: the entries `behind` it, where the task
came from and goes back to, and those `ahead`, which it has left.
-/
namespace BmCore.Topology
open Library

/-- A place in a list, with what is behind and ahead, nearest first. -/
structure Place (α : Type) where
  behind : List α
  cur : α
  ahead : List α

namespace Place
variable {α β : Type} (p : Place α)

/-- The list in its order. -/
def list (insertBefore : Bool) : List α :=
  if insertBefore then p.ahead.reverse ++ p.cur :: p.behind
  else p.behind.reverse ++ p.cur :: p.ahead

/-- One step back, if there is a way back. -/
def back : Place α :=
  match p.behind with
  | [] => p
  | b :: behind => ⟨behind, b, p.cur :: p.ahead⟩

/-- A new element next to the place, and the step to it. -/
def push (a : α) : Place α := ⟨p.cur :: p.behind, a, p.ahead⟩

/-- The other direction. -/
def turn : Place α := ⟨p.ahead, p.cur, p.behind⟩

def setCur (a : α) : Place α := { p with cur := a }

def map (f : α → β) : Place β := ⟨p.behind.map f, f p.cur, p.ahead.map f⟩

/-- All the elements, in no order. -/
def all : List α := p.cur :: (p.behind ++ p.ahead)

variable {p}

theorem list_perm (insertBefore : Bool) : (p.list insertBefore).Perm p.all := by
  cases insertBefore with
  | false =>
    exact List.perm_middle.trans (((List.reverse_perm p.behind).append_right p.ahead).cons p.cur)
  | true =>
    refine List.perm_middle.trans (List.Perm.cons p.cur ?_)
    exact ((List.reverse_perm p.ahead).append_right p.behind).trans List.perm_append_comm

theorem mem_list {insertBefore : Bool} {a : α} : a ∈ p.list insertBefore ↔ a ∈ p.all :=
  (list_perm insertBefore).mem_iff

theorem map_list (f : α → β) (insertBefore : Bool) :
    (p.list insertBefore).map f = (p.map f).list insertBefore := by
  cases insertBefore <;> simp [list, map]

theorem back_all : p.back.all.Perm p.all := by
  obtain ⟨behind, cur, ahead⟩ := p
  cases behind with
  | nil => exact List.Perm.refl _
  | cons b behind =>
    refine (List.Perm.cons b List.perm_middle).trans ?_
    exact List.Perm.swap ..

@[simp] theorem map_back (f : α → β) : p.back.map f = (p.map f).back := by
  obtain ⟨behind, cur, ahead⟩ := p
  cases behind <;> rfl

@[simp] theorem map_push (f : α → β) (a : α) : (p.push a).map f = (p.map f).push (f a) := rfl

@[simp] theorem map_setCur (f : α → β) (a : α) : (p.setCur a).map f = (p.map f).setCur (f a) := rfl

@[simp] theorem map_turn (f : α → β) : p.turn.map f = (p.map f).turn := rfl

theorem map_all (f : α → β) : p.all.map f = (p.map f).all := by
  simp [all, map]

end Place

section Cut
variable {m : TopologyMem} {insertBefore : Bool} {p : Place (Nat × Visit)}

/-- The list as it is seen from the cursor. -/
def Cut (m : TopologyMem) (insertBefore : Bool) (p : Place (Nat × Visit)) : Prop :=
  if insertBefore then Rep m p.ahead.reverse p.cur p.behind
  else Rep m p.behind.reverse p.cur p.ahead

/-- `INSERT_BEFORE` is set: what was ahead is behind now. -/
theorem Cut.turn (h : Cut m false p) : Cut m true p.turn := h

theorem Cut.listed (h : Cut m insertBefore p) : Listed m (p.list insertBefore) := by
  cases insertBefore with
  | false => exact Rep.toListed h
  | true => exact Rep.toListed h

theorem Cut.allocated (h : Cut m insertBefore p) {e : Nat × Visit} (he : e ∈ p.all) :
    m.heap e.1 ≠ none :=
  h.listed.allocated (Place.mem_list.mpr he)

theorem Cut.update (h : Cut m insertBefore p) {a : Nat} (ha : a ∉ p.all.map Prod.fst)
    (e : Option NeighborTableEntry) :
    Cut ⟨Function.update m.heap a e, m.net⟩ insertBefore p := by
  have hlist : a ∉ (p.list insertBefore).map Prod.fst :=
    fun hmem => ha (((Place.list_perm insertBefore).map Prod.fst).mem_iff.mp hmem)
  cases insertBefore with
  | false => exact Rep.update h hlist e
  | true => exact Rep.update h hlist e

theorem Cut.length_le (h : Cut m insertBefore p) {fresh : Nat}
    (hfresh : ∀ a, m.heap a ≠ none → a < fresh) : (p.list insertBefore).length ≤ fresh := by
  have hlisted := h.listed
  have hsubset : (p.list insertBefore).map Prod.fst ⊆ List.range fresh := by
    intro a ha
    obtain ⟨e, he, rfl⟩ := List.mem_map.mp ha
    exact List.mem_range.mpr (hfresh e.1 (h.allocated (Place.mem_list.mp he)))
  have hlength := (hlisted.nodup.subperm hsubset).length_le
  simpa using hlength

/-- The cursor goes back. -/
def goBack (insertBefore : Bool) (m : TopologyMem) : Option TopologyMem :=
  if insertBefore then m.moveNext else m.movePrev

theorem Cut.goBack (h : Cut m insertBefore p) :
    ∃ m', goBack insertBefore m = some m' ∧ m'.heap = m.heap ∧ Cut m' insertBefore p.back := by
  obtain ⟨behind, cur, ahead⟩ := p
  cases insertBefore with
  | false =>
    cases behind with
    | nil => exact ⟨m, Rep.movePrev_nil h, rfl, h⟩
    | cons b behind =>
      simp only [Cut, Bool.false_eq_true, if_false, List.reverse_cons] at h
      exact h.movePrev
  | true =>
    cases behind with
    | nil => exact ⟨m, Rep.moveNext_nil h, rfl, h⟩
    | cons b behind =>
      obtain ⟨m', hmove, hheap, hrep⟩ := Rep.moveNext h
      exact ⟨m', hmove, hheap, by simpa [Cut, Place.back] using hrep⟩

/-- An entry is added next to the cursor, and the cursor goes to it. -/
def addAhead (insertBefore : Bool) (entry : Nat) (m : TopologyMem) : Option TopologyMem :=
  if insertBefore then do (← m.insertBefore entry).movePrev else do (← m.insertAfter entry).moveNext

theorem Cut.addAhead {a : Nat} {v : Visit} (h : Cut m insertBefore p)
    (hnew : NewEntry m (p.list insertBefore) a v) :
    ∃ m', addAhead insertBefore a m = some m' ∧ SameBut m m' (p.list insertBefore) a ∧
      Cut m' insertBefore (p.push (a, v)) := by
  obtain ⟨behind, cur, ahead⟩ := p
  cases insertBefore with
  | false =>
    obtain ⟨m₁, hinsert, hsame, hrep⟩ := Rep.insertAfter h hnew
    obtain ⟨m₂, hmove, hheap, hrep⟩ := hrep.moveNext
    refine ⟨m₂, ?_, fun x hx hxa => ?_, by simpa [Cut, Place.push] using hrep⟩
    · simp [Topology.addAhead, hinsert, hmove]
    · rw [hheap]
      exact hsame x hx hxa
  | true =>
    obtain ⟨m₁, hinsert, hsame, hrep⟩ := Rep.insertBefore h hnew
    obtain ⟨m₂, hmove, hheap, hrep⟩ := hrep.movePrev
    refine ⟨m₂, ?_, fun x hx hxa => ?_, hrep⟩
    · simp [Topology.addAhead, hinsert, hmove]
    · rw [hheap]
      exact hsame x hx hxa

theorem Cut.incrementPortCount (h : Cut m insertBefore p) :
    ∃ m', m.incrementPortCount = some m' ∧ (∀ x, x ≠ p.cur.1 → m'.heap x = m.heap x) ∧
      Cut m' insertBefore (p.setCur (p.cur.1, p.cur.2.explore)) := by
  cases insertBefore with
  | false => exact Rep.incrementPortCount h
  | true => exact Rep.incrementPortCount h

theorem Cut.isRoot (h : Cut m insertBefore p) : m.isRoot = some p.cur.2.isRoot := by
  cases insertBefore with
  | false => exact Rep.isRoot h
  | true => exact Rep.isRoot h

theorem Cut.getPortCount (h : Cut m insertBefore p) (hports : p.cur.2.portsExplored < 256) :
    ∃ count, m.getPortCount = some count ∧ (count = 1 ↔ p.cur.2.portsExplored = 1) := by
  cases insertBefore with
  | false => exact Rep.getPortCount h hports
  | true => exact Rep.getPortCount h hports

theorem Cut.checkAllPortsExplored (h : Cut m insertBefore p) :
    m.checkAllPortsExplored =
      p.cur.2.table.neighborsOnlineCount.map (· == p.cur.2.portsExplored) := by
  cases insertBefore with
  | false => exact Rep.checkAllPortsExplored h
  | true => exact Rep.checkAllPortsExplored h

/-- One of the visits is at the node. -/
def known (visits : List Visit) (nodeId : Nat) : Bool := visits.any (·.table.nodeId == nodeId)

theorem inList_eq_known (insertBefore : Bool) (nodeId : Nat) :
    inList (p.list insertBefore) nodeId = known (p.map Prod.snd).all nodeId := by
  rw [known, ← Place.map_all, List.any_map]
  exact (Place.list_perm insertBefore).any_eq

theorem Cut.nodeIdInTopology (h : Cut m insertBefore p) {fuel : Nat}
    (hfuel : (p.list insertBefore).length ≤ fuel) (nodeId : Nat) :
    m.nodeIdInTopology fuel nodeId = some (known (p.map Prod.snd).all nodeId) := by
  rw [← inList_eq_known insertBefore]
  cases insertBefore with
  | false => exact Rep.nodeIdInTopology h hfuel nodeId
  | true => exact Rep.nodeIdInTopology h hfuel nodeId

/-- The first neighbor at which none of the visits is, 0 for none. -/
def newNode (visits : List Visit) (v : Visit) : Nat :=
  ((v.table.neighborList.find? fun info => !known visits info.nodeId).map (·.nodeId)).getD 0

theorem Cut.checkNeighborNodeIds (h : Cut m insertBefore p) {fuel : Nat}
    (hfuel : (p.list insertBefore).length ≤ fuel)
    (hneighbors : p.cur.2.table.neighborList.length < 256) :
    m.checkNeighborNodeIds fuel = some (newNode (p.map Prod.snd).all p.cur.2) := by
  rw [newNode]
  simp only [← inList_eq_known insertBefore]
  cases insertBefore with
  | false => exact Rep.checkNeighborNodeIds h hfuel hneighbors
  | true => exact Rep.checkNeighborNodeIds h hfuel hneighbors

theorem Cut.clear (h : Cut m insertBefore p) :
    ∃ m', m.clear = some m' ∧ m'.heap = without m.heap (p.list insertBefore) := by
  cases insertBefore with
  | false => exact Rep.clear h
  | true => exact Rep.clear h

end Cut

/-! ## Well-formed tables -/

namespace BcmpNeighborTableReply
variable {reply : BcmpNeighborTableReply}

/-- Inside the port list the bytes are those of the ports. -/
theorem portState_eq {i : Nat} (hi : i < reply.portList.length) :
    reply.portState i = some reply.portList[i].state := by
  have hbody : ∀ (ports : List BcmpPortInfo) (rest : List UInt8) (i : Nat) (hi : i < ports.length),
      (ports.flatMap (fun port => [if port.state then 1 else 0, port.type]) ++ rest)[2 * i]? =
        some (if ports[i].state then 1 else 0) := by
    intro ports rest
    induction ports with
    | nil => simp
    | cons port ports ih =>
      intro i hi
      cases i with
      | zero => rfl
      | succ i =>
        have hrest := ih i (Nat.lt_of_succ_lt_succ hi)
        rw [show 2 * (i + 1) = 2 * i + 2 by omega]
        simpa using hrest
  rw [portState, body, hbody _ _ _ hi]
  cases reply.portList[i].state <;> rfl

/-- A neighbor is on a port that is up. -/
def onUpPort (reply : BcmpNeighborTableReply) (info : BcmpNeighborInfo) : Bool :=
  (reply.portList[info.port.toNat - 1]?).any (·.state)

theorem WellFormed.portState (h : reply.WellFormed) {info : BcmpNeighborInfo}
    (hinfo : info ∈ reply.neighborList) :
    reply.portState (info.port - 1).toNat = some (reply.onUpPort info) := by
  obtain ⟨hpos, hle⟩ := h.2 info hinfo
  have hport : (info.port - 1).toNat = info.port.toNat - 1 := by
    have hlt := info.port.toNat_lt
    rw [UInt8.toNat_sub_of_le]
    · rfl
    · exact UInt8.le_iff_toNat_le.mpr hpos
  have hi : info.port.toNat - 1 < reply.portList.length := by omega
  rw [hport, portState_eq hi, onUpPort, List.getElem?_eq_getElem hi]
  rfl

/-- All the neighbors on ports that are up are counted. -/
theorem WellFormed.neighborsOnlineCount (h : reply.WellFormed) :
    reply.neighborsOnlineCount = some (reply.neighborList.countP reply.onUpPort) := by
  have hloop : ∀ (infos : List BcmpNeighborInfo) (count : Nat),
      (∀ info ∈ infos, info ∈ reply.neighborList) →
      infos.foldlM (fun count info => (reply.portState (info.port - 1).toNat).map fun up =>
        if up then count + 1 else count) count = some (count + infos.countP reply.onUpPort) := by
    intro infos
    induction infos with
    | nil => simp
    | cons info infos ih =>
      intro count hmem
      have hstate := h.portState (hmem info List.mem_cons_self)
      have hrest := fun count => ih count fun i hi => hmem i (List.mem_cons_of_mem info hi)
      rw [List.foldlM_cons, hstate, List.countP_cons]
      cases reply.onUpPort info with
      | false => simpa using hrest count
      | true =>
        have hnext := hrest (count + 1)
        simp only [Option.map_some, if_true, Option.bind_eq_bind, Option.bind_some, hnext]
        congr 1
        omega
  simpa [BcmpNeighborTableReply.neighborsOnlineCount] using hloop reply.neighborList 0 fun _ h => h

end BcmpNeighborTableReply

/-- A visit of a node that sends well-formed tables. -/
structure Visit.Valid (v : Visit) : Prop where
  ports : v.portsExplored < 256
  table : v.table.WellFormed

/-- Every port with a neighbor has been explored. -/
def Visit.done (v : Visit) : Bool :=
  v.table.neighborList.countP v.table.onUpPort == v.portsExplored

theorem Visit.Valid.explore {v : Visit} (h : v.Valid) : v.explore.Valid :=
  ⟨Nat.mod_lt _ (by decide), h.table⟩

/-! ## The handlers -/

/-- The context with another list. -/
@[simps]
def TopoContext.withList (s : TopoContext) (heap : Nat → Option NeighborTableEntry)
    (net : NetworkTopology) : TopoContext :=
  { s with heap, networkTopology := some net }

theorem onTopology_eq {s : TopoContext} {net : NetworkTopology} {m : TopologyMem}
    {f : TopologyMem → Option TopologyMem} (hnet : s.networkTopology = some net)
    (hf : f ⟨s.heap, net⟩ = some m) : s.onTopology f = some (s.withList m.heap m.net) := by
  simp [TopoContext.onTopology, hnet, hf, TopoContext.withList]

/-- The list of the root alone. -/
def rootTopology (a : Nat) : NetworkTopology := ⟨some a, some a, some a, 1, 0⟩

theorem processStart_eq (s : TopoContext) (env : HandleEnv)
    (halloc : env.topologyAlloc = true ∧ env.entryAlloc = true ∧ env.tableAlloc = true) :
    s.processStartTopologyEvent env = some
      (((s.newEntry true env.own).withList (s.newEntry true env.own).heap
        (rootTopology s.fresh)).bmQueueSend .checkNode, true) := by
  simp [TopoContext.processStartTopologyEvent, halloc, TopoContext.onTopology,
    TopoContext.newEntry, newNetworkTopology, TopologyMem.append, TopologyMem.first,
    TopologyMem.modify, TopologyMem.lengthInc, TopologyMem.moveToFront, TopoContext.withList,
    rootTopology]

theorem newEntry_rep (s : TopoContext) (own : BcmpNeighborTableReply) :
    Rep ⟨(s.newEntry true own).heap, rootTopology s.fresh⟩ [] (s.fresh, ⟨0, true, own⟩) [] :=
  Rep.single (by simp [TopoContext.newEntry, mkEntry])

/-- The session has its list, and the cursor is at `p`. -/
structure Shows (s : TopoContext) (p : Place (Nat × Visit)) : Prop where
  cut : ∃ net, s.networkTopology = some net ∧ Cut ⟨s.heap, net⟩ s.insertBefore p
  fresh : ∀ a, s.heap a ≠ none → a < s.fresh
  valid : ∀ e ∈ p.all, e.2.Valid

namespace Shows
variable {s s' : TopoContext} {p : Place (Nat × Visit)} {env : HandleEnv}

theorem congr (h : Shows s p) (hnet : s'.networkTopology = s.networkTopology)
    (hheap : s'.heap = s.heap) (hbefore : s'.insertBefore = s.insertBefore)
    (hfresh : s'.fresh = s.fresh) : Shows s' p := by
  obtain ⟨⟨net, hsnet, hcut⟩, hlt, hvalid⟩ := h
  refine ⟨⟨net, hnet.trans hsnet, ?_⟩, ?_, hvalid⟩
  · rw [hheap, hbefore]
    exact hcut
  · rw [hheap, hfresh]
    exact hlt

theorem cur_valid (h : Shows s p) : p.cur.2.Valid := h.valid p.cur List.mem_cons_self

theorem moveBack (h : Shows s p) :
    ∃ net, s.moveBack = some (s.withList s.heap net) ∧ Shows (s.withList s.heap net) p.back := by
  obtain ⟨⟨net, hnet, hcut⟩, hfresh, hvalid⟩ := h
  obtain ⟨⟨heap, net'⟩, hmove, hheap, hback⟩ := hcut.goBack
  obtain rfl : heap = s.heap := hheap
  refine ⟨net', ?_, ⟨net', rfl, hback⟩, hfresh, fun e he => hvalid e (Place.back_all.mem_iff.mp he)⟩
  rw [← onTopology_eq hnet hmove, TopoContext.moveBack]
  cases s.insertBefore <;> rfl

theorem ask_explored (h : Shows s p) :
    s.ask false TopologyMem.checkAllPortsExplored = some p.cur.2.done := by
  obtain ⟨net, hnet, hcut⟩ := h.cut
  simp [TopoContext.ask, hnet, hcut.checkAllPortsExplored, h.cur_valid.table.neighborsOnlineCount,
    Visit.done]

theorem ask_isRoot (h : Shows s p) : s.ask false TopologyMem.isRoot = some p.cur.2.isRoot := by
  obtain ⟨net, hnet, hcut⟩ := h.cut
  simp [TopoContext.ask, hnet, hcut.isRoot]

theorem ask_newNode (h : Shows s p) :
    s.ask 0 (fun m => m.checkNeighborNodeIds s.fresh) =
      some (newNode (p.map Prod.snd).all p.cur.2) := by
  obtain ⟨net, hnet, hcut⟩ := h.cut
  simp only [TopoContext.ask, hnet]
  exact hcut.checkNeighborNodeIds (hcut.length_le h.fresh) h.cur_valid.table.1

theorem ask_known (h : Shows s p) (nodeId : Nat) :
    s.ask false (fun m => m.nodeIdInTopology s.fresh nodeId) =
      some (known (p.map Prod.snd).all nodeId) := by
  obtain ⟨net, hnet, hcut⟩ := h.cut
  simp only [TopoContext.ask, hnet]
  exact hcut.nodeIdInTopology (hcut.length_le h.fresh) nodeId

/-! ### `BcmpTopoEvtCheckNode` -/

theorem check_done_root (h : Shows s p) (hdone : p.cur.2.done = true)
    (hroot : p.cur.2.isRoot = true) : s.processCheckNodeEvent env = some s.topologyEnd := by
  simp [TopoContext.processCheckNodeEvent, h.ask_explored, h.ask_isRoot, hdone, hroot]

theorem check_done (h : Shows s p) (hdone : p.cur.2.done = true) (hroot : p.cur.2.isRoot = false) :
    ∃ net, s.processCheckNodeEvent env = some ((s.withList s.heap net).bmQueueSend .checkNode) ∧
      Shows (s.withList s.heap net) p.back := by
  obtain ⟨net, hmove, hshows⟩ := h.moveBack
  refine ⟨net, ?_, hshows⟩
  simp [TopoContext.processCheckNodeEvent, h.ask_explored, h.ask_isRoot, hdone, hroot, hmove]

/-- At the root with one port explored `INSERT_BEFORE` is set. -/
def turned (s : TopoContext) (v : Visit) : TopoContext :=
  { s with insertBefore := s.insertBefore || (v.isRoot && v.portsExplored == 1) }

/-- The place, seen in the direction of `turned`. -/
def turnedPlace (s : TopoContext) (p : Place (Nat × Visit)) : Place (Nat × Visit) :=
  if !s.insertBefore && (p.cur.2.isRoot && p.cur.2.portsExplored == 1) then p.turn else p

theorem shows_turned (h : Shows s p) : Shows (turned s p.cur.2) (turnedPlace s p) := by
  obtain ⟨⟨net, hnet, hcut⟩, hfresh, hvalid⟩ := h
  rw [turnedPlace]
  cases hbefore : s.insertBefore with
  | true =>
    rw [hbefore] at hcut
    refine ⟨⟨net, hnet, ?_⟩, hfresh, hvalid⟩
    simpa [turned, hbefore] using hcut
  | false =>
    rw [hbefore] at hcut
    cases hroot : p.cur.2.isRoot && p.cur.2.portsExplored == 1 with
    | false =>
      refine ⟨⟨net, hnet, ?_⟩, hfresh, hvalid⟩
      simpa [turned, hbefore, hroot] using hcut
    | true =>
      refine ⟨⟨net, hnet, ?_⟩, hfresh, fun e he => hvalid e ?_⟩
      · simpa [turned, hbefore, hroot] using hcut.turn
      · simpa [Place.all, Place.turn, or_comm] using he

/-- `BcmpTopoEvtCheckNode` for a node with ports to explore. -/
theorem check_eq (h : Shows s p) (hdone : p.cur.2.done = false) :
    s.processCheckNodeEvent env =
      if newNode (p.map Prod.snd).all p.cur.2 ≠ 0 then
        let (s, ok) := (turned s p.cur.2).bcmpRequestNeighborTable
          (newNode (p.map Prod.snd).all p.cur.2) env
        some (if ok then s else s.topologyEnd)
      else (turned s p.cur.2).moveBack.map (·.bmQueueSend .checkNode) := by
  obtain ⟨net, hnet, hcut⟩ := h.cut
  obtain ⟨count, hcount, hone⟩ := hcut.getPortCount h.cur_valid.ports
  have hask : s.ask (-1) TopologyMem.getPortCount = some count := by
    simp [TopoContext.ask, hnet, hcount]
  have hturned : (if p.cur.2.isRoot = true ∧ count = 1 then
    { s with insertBefore := true } else s) =
      turned s p.cur.2 := by
    rw [turned]
    split
    · rename_i hroot
      simp [hroot.1, hone.mp hroot.2]
    · rename_i hroot
      have hfalse : (p.cur.2.isRoot && p.cur.2.portsExplored == 1) = false := by
        simpa [hone] using hroot
      rw [hfalse, Bool.or_false]
  have hnew : (turned s p.cur.2).ask 0 (fun m => m.checkNeighborNodeIds (turned s p.cur.2).fresh) =
      some (newNode (p.map Prod.snd).all p.cur.2) := by
    have hnew := h.shows_turned.ask_newNode
    have hperm : (turnedPlace s p).cur = p.cur ∧
        ((turnedPlace s p).map Prod.snd).all.Perm (p.map Prod.snd).all := by
      rw [turnedPlace]
      split
      · exact ⟨rfl, List.Perm.cons _ List.perm_append_comm⟩
      · exact ⟨rfl, List.Perm.refl _⟩
    rw [hnew, hperm.1]
    simp only [newNode, known, hperm.2.any_eq]
  simp only [TopoContext.processCheckNodeEvent, h.ask_explored, h.ask_isRoot, hdone, hask, hturned,
    Option.bind_eq_bind, Option.bind_some, Bool.false_eq_true, if_false, hnew]
  split
  · rfl
  · cases (turned s p.cur.2).moveBack <;> rfl

/-! ### `BcmpTopoEvtStart` and `BcmpTopoEvtEnd` -/

/-- The list of a session that has just started. -/
def start (a : Nat) (own : BcmpNeighborTableReply) : Place (Nat × Visit) :=
  ⟨[], (a, ⟨0, true, own⟩), []⟩

theorem processStart (env : HandleEnv) (hfresh : ∀ a, s.heap a ≠ none → a < s.fresh)
    (hown : env.own.WellFormed)
    (halloc : env.topologyAlloc = true ∧ env.entryAlloc = true ∧ env.tableAlloc = true) :
    ∃ net, s.processStartTopologyEvent env = some
        (((s.newEntry true env.own).withList (s.newEntry true env.own).heap net).bmQueueSend
          .checkNode,
          true) ∧
      Shows ((s.newEntry true env.own).withList (s.newEntry true env.own).heap net)
        (start s.fresh env.own) := by
  refine ⟨rootTopology s.fresh, processStart_eq s env halloc, ⟨rootTopology s.fresh, rfl, ?_⟩,
    fun a ha => ?_, ?_⟩
  · rw [Cut]
    split
    · exact newEntry_rep s env.own
    · exact newEntry_rep s env.own
  · simp only [TopoContext.newEntry, TopoContext.withList, Function.update_apply] at ha ⊢
    split at ha
    · omega
    · exact Nat.lt_succ_of_lt (hfresh a ha)
  · intro e he
    obtain rfl : e = (s.fresh, ⟨0, true, env.own⟩) := by simpa [start, Place.all] using he
    exact ⟨Nat.zero_lt_succ _, hown⟩

/-- The session begins. -/
def opened (s : TopoContext) (callback : Nat) : TopoContext :=
  { s with inProgress := true, sentRequest := true, callback := some callback }

theorem handleStart (env : HandleEnv) (callback : Nat) (hidle : s.inProgress = false)
    (hfresh : ∀ a, s.heap a ≠ none → a < s.fresh) (hown : env.own.WellFormed)
    (halloc : env.topologyAlloc = true ∧ env.entryAlloc = true ∧ env.tableAlloc = true) :
    ∃ net, s.handleStart callback env = some (opened
        (((s.newEntry true env.own).withList (s.newEntry true env.own).heap net).bmQueueSend
          .checkNode)
        callback) ∧
      Shows ((s.newEntry true env.own).withList (s.newEntry true env.own).heap net)
        (start s.fresh env.own) := by
  obtain ⟨net, hprocess, hshows⟩ := processStart env hfresh hown halloc
  refine ⟨net, ?_, hshows⟩
  rw [TopoContext.handleStart, if_neg (by simp [hidle]), hprocess]
  rfl

/-- The entries of the list are freed. -/
theorem freeNetworkTopology (h : Shows s p) : s.freeNetworkTopology =
    some { s with heap := without s.heap p.all, networkTopology := none } := by
  obtain ⟨net, hnet, hcut⟩ := h.cut
  obtain ⟨m, hclear, hheap⟩ := hcut.clear
  have hwithout : without s.heap (p.list s.insertBefore) = without s.heap p.all := by
    funext a
    simp only [without, ((Place.list_perm s.insertBefore).map Prod.fst).mem_iff]
  rw [← hwithout]
  simp [TopoContext.freeNetworkTopology, TopoContext.onTopology, hnet, hclear, hheap]

/-- The context after `BcmpTopoEvtEnd`. -/
def ended (s : TopoContext) (p : Place (Nat × Visit)) (calls : List Call) : TopoContext :=
  { s with
    heap := without s.heap p.all, networkTopology := none, insertBefore := false, retryCount := 0,
    sentRequest := false, inProgress := false, calls }

theorem handleEnd (h : Shows s p) {callback : Nat} {net : NetworkTopology}
    (hcallback : s.callback = some callback) (hnet : s.networkTopology = some net) :
    s.handleEnd = some (ended s p (s.calls ++ [⟨callback, some ⟨s.heap, net⟩⟩])) := by
  have hcalled : Shows { s with calls := s.calls ++ [⟨callback, some ⟨s.heap, net⟩⟩] } p :=
    h.congr rfl rfl rfl rfl
  simp only [TopoContext.handleEnd, hcallback, hnet, Option.map_some, Option.toList_some,
    List.map_cons, List.map_nil]
  rw [← hcallback, ← hnet, Option.bind_eq_bind, hcalled.freeNetworkTopology, Option.bind_some]
  rfl

/-! ### `BcmpTopoEvtTimeout` -/

theorem incrementPortCount (h : Shows s p) :
    ∃ heap net, s.onTopology TopologyMem.incrementPortCount = some (s.withList heap net) ∧
      (∀ a, a ≠ p.cur.1 → heap a = s.heap a) ∧
      Shows (s.withList heap net) (p.setCur (p.cur.1, p.cur.2.explore)) := by
  obtain ⟨net, hnet, hcut⟩ := h.cut
  obtain ⟨m, hincrement, hother, hcut'⟩ := hcut.incrementPortCount
  refine ⟨m.heap, m.net, onTopology_eq hnet hincrement, hother,
    ⟨m.net, rfl, hcut'⟩, fun a (ha : m.heap a ≠ none) => h.fresh a ?_, fun e he => ?_⟩
  · rcases eq_or_ne a p.cur.1 with rfl | hne
    · exact hcut.allocated List.mem_cons_self
    · rwa [hother a hne] at ha
  · rcases List.mem_cons.mp he with rfl | he
    · exact h.cur_valid.explore
    · exact h.valid e (List.mem_cons_of_mem _ he)

/-- One more timeout. -/
def retried (s : TopoContext) : TopoContext := { s with retryCount := (s.retryCount + 1) % 256 }

theorem handleTimeout_retry (hretry : (retried s).retryCount < topologyRetries) :
    s.handleTimeout = some ((retried s).bmQueueSend .checkNode) := by
  have hlt : ¬topologyRetries ≤ (s.retryCount + 1) % 256 := Nat.not_le.mpr hretry
  rw [TopoContext.handleTimeout]
  simp only [ge_iff_le, hlt, if_false]
  rfl

/-- The node is given up. -/
theorem handleTimeout (h : Shows s p) (hretry : topologyRetries ≤ (retried s).retryCount) :
    ∃ heap net, s.handleTimeout =
        some (((retried s).withList heap net).bmQueueSend .checkNode) ∧
      (∀ a, a ≠ p.cur.1 → heap a = s.heap a) ∧
      Shows ((retried s).withList heap net) (p.setCur (p.cur.1, p.cur.2.explore)).back := by
  have hs : Shows (retried s) p := h.congr rfl rfl rfl rfl
  obtain ⟨heap, net, hincrement, hother, hshows⟩ := hs.incrementPortCount
  obtain ⟨net', hmove, hback⟩ := hshows.moveBack
  refine ⟨heap, net', ?_, hother, hback⟩
  change (do
    let s ← if (retried s).retryCount ≥ topologyRetries then do
        let s ← (retried s).onTopology TopologyMem.incrementPortCount
        s.moveBack
      else some (retried s)
    some (s.bmQueueSend .checkNode)) = _
  rw [if_pos hretry, hincrement, Option.bind_eq_bind, Option.bind_some, hmove]
  rfl

/-! ### `BcmpTopoEvtAddNode` and replies -/

theorem onTopology_bind (s : TopoContext) (f g : TopologyMem → Option TopologyMem) :
    ((s.onTopology f).bind fun s => s.onTopology g) = s.onTopology fun m => (f m).bind g := by
  cases hnet : s.networkTopology with
  | none => simp [TopoContext.onTopology, hnet]
  | some net =>
    simp only [TopoContext.onTopology, hnet]
    cases f ⟨s.heap, net⟩ <;> rfl

/-- An entry that is not in the list is freed. -/
theorem freeOther (h : Shows s p) {a : Nat} (ha : a ∉ p.all.map Prod.fst) :
    Shows { s with heap := Function.update s.heap a none } p := by
  obtain ⟨net, hnet, hcut⟩ := h.cut
  refine ⟨⟨net, hnet, hcut.update ha none⟩, fun x hx => h.fresh x fun hnone => hx ?_, h.valid⟩
  simp [Function.update_apply, hnone]

theorem handleAddNode_known (h : Shows s p) {a : Nat} {e : NeighborTableEntry}
    (he : s.heap a = some e) (hknown : known (p.map Prod.snd).all e.neighborTableReply.nodeId =
      true) :
    s.handleAddNode a =
      some ({ s with heap := Function.update s.heap a none }.bmQueueSend .checkNode) := by
  rw [TopoContext.handleAddNode, he]
  simp [h.ask_known, hknown]

theorem handleAddNode (h : Shows s p) {a : Nat} {v : Visit}
    (hcell : s.heap a = some (mkEntry none none v)) (hfresh : a ∉ p.all.map Prod.fst)
    (hroom : p.all.length < 255) (hvalid : v.Valid)
    (hknown : known (p.map Prod.snd).all v.table.nodeId = false) :
    ∃ heap net, s.handleAddNode a = some ((s.withList heap net).bmQueueSend .checkNode) ∧
      (∀ x, x ∉ p.all.map Prod.fst → x ≠ a → heap x = s.heap x) ∧
      Shows (s.withList heap net) (p.push (a, v.explore)) := by
  obtain ⟨net, hnet, hcut⟩ := h.cut
  have hperm := Place.list_perm (p := p) s.insertBefore
  have hnew : NewEntry ⟨s.heap, net⟩ (p.list s.insertBefore) a v :=
    ⟨hcell, fun hmem => hfresh ((hperm.map Prod.fst).mem_iff.mp hmem), by
      rw [hperm.length_eq]
      exact hroom⟩
  obtain ⟨m, hadd, hsame, hcut'⟩ := hcut.addAhead hnew
  have hs : Shows (s.withList m.heap m.net) (p.push (a, v)) := by
    refine ⟨⟨m.net, rfl, hcut'⟩, fun x (hx : m.heap x ≠ none) => h.fresh x ?_, fun e he => ?_⟩
    · by_cases hmem : x ∈ p.all.map Prod.fst
      · obtain ⟨e, he, rfl⟩ := List.mem_map.mp hmem
        exact hcut.allocated he
      · rcases eq_or_ne x a with rfl | hne
        · rw [hcell]
          exact Option.some_ne_none _
        · have hlist : x ∉ (p.list s.insertBefore).map Prod.fst :=
            fun hx => hmem ((hperm.map Prod.fst).mem_iff.mp hx)
          rwa [hsame x hlist hne] at hx
    · rcases List.mem_cons.mp he with rfl | he
      · exact hvalid
      · exact h.valid e he
  obtain ⟨heap, net', hincrement, hother, hshows⟩ := hs.incrementPortCount
  refine ⟨heap, net', ?_, fun x hx hxa => ?_, hshows⟩
  · have hon := onTopology_eq hnet hadd
    have hbefore : (s.onTopology (·.insertBefore a)).bind (·.onTopology TopologyMem.movePrev) =
        s.onTopology (addAhead true a) := onTopology_bind ..
    have hafter : (s.onTopology (·.insertAfter a)).bind (·.onTopology TopologyMem.moveNext) =
        s.onTopology (addAhead false a) := onTopology_bind ..
    rw [TopoContext.handleAddNode, hcell]
    simp only [Option.bind_eq_bind, Option.bind_some, mkEntry, h.ask_known, hknown,
      Bool.false_eq_true, if_false]
    cases hcase : s.insertBefore with
    | false =>
      rw [hcase] at hon
      simp only [Bool.false_eq_true, if_false]
      rw [← Option.bind_assoc, hafter, hon, Option.bind_some, hincrement]
      rfl
    | true =>
      rw [hcase] at hon
      simp only [if_true]
      rw [← Option.bind_assoc, hbefore, hon, Option.bind_some, hincrement]
      rfl
  · rw [hother x hxa]
    exact hsame x (fun hmem => hx ((hperm.map Prod.fst).mem_iff.mp hmem)) hxa

def timerStopped (s : TopoContext) : TopoContext := { s with timerRunning := false }

def callbackDone (s : TopoContext) : TopoContext := { s with neighborRequestCb := false }

theorem processReply_eq {reply : BcmpNeighborTableReply} {entryAlloc tableAlloc : Bool}
    (htarget : s.targetNodeId = reply.nodeId) (hcb : s.neighborRequestCb = true) :
    s.bcmpProcessNeighborTableReply reply true entryAlloc tableAlloc =
      ((timerStopped s).neighborRequestCallback reply entryAlloc tableAlloc).map callbackDone := by
  rw [TopoContext.bcmpProcessNeighborTableReply, if_neg (not_not.mpr htarget)]
  simp only [if_true]
  rw [if_pos hcb]
  change ((timerStopped s).neighborRequestCallback reply entryAlloc tableAlloc).bind _ = _
  cases (timerStopped s).neighborRequestCallback reply entryAlloc tableAlloc <;> rfl

/-- The context after a reply has been copied. -/
def replied (s : TopoContext) : TopoContext := { s with fresh := s.fresh + 1, retryCount := 0 }

/-- `neighbor_request_cb` with a session. -/
theorem neighborRequestCallback (h : Shows s p) (hsent : s.sentRequest = true)
    (reply : BcmpNeighborTableReply) :
    ∃ heap net, s.neighborRequestCallback reply true true =
        some (((replied s).withList heap net).bmQueueSend (.addNode s.fresh)) ∧
      heap s.fresh = some (mkEntry none none ⟨0, false, reply⟩) ∧
      s.fresh ∉ p.all.map Prod.fst ∧
      (∀ a, a ≠ s.fresh → a ≠ p.cur.1 → heap a = s.heap a) ∧
      Shows ((replied s).withList heap net) (p.setCur (p.cur.1, p.cur.2.explore)) := by
  obtain ⟨net, hnet, hcut⟩ := h.cut
  have hlt : ∀ e ∈ p.all, e.1 < s.fresh := fun e he => h.fresh e.1 (hcut.allocated he)
  have hnotin : s.fresh ∉ p.all.map Prod.fst := by
    intro hmem
    obtain ⟨e, he, hefresh⟩ := List.mem_map.mp hmem
    have helt := hlt e he
    omega
  have hcur : s.fresh ≠ p.cur.1 := by
    have hcur := hlt p.cur List.mem_cons_self
    omega
  have hs : Shows { s.newEntry false reply with retryCount := 0 } p := by
    refine ⟨⟨net, hnet, hcut.update hnotin _⟩, fun a ha => ?_, h.valid⟩
    simp only [TopoContext.newEntry, Function.update_apply] at ha ⊢
    split at ha
    · omega
    · exact Nat.lt_succ_of_lt (h.fresh a ha)
  obtain ⟨heap, net', hincrement, hother, hshows⟩ := hs.incrementPortCount
  refine ⟨heap, net', ?_, ?_, hnotin, fun a ha hacur => ?_, hshows⟩
  · rw [TopoContext.neighborRequestCallback, if_neg (by simp [hsent]), if_neg (by simp)]
    simp only [hincrement, Option.bind_eq_bind, Option.bind_some]
    rfl
  · rw [hother _ hcur]
    simp [TopoContext.newEntry, mkEntry]
  · rw [hother a hacur]
    simp [TopoContext.newEntry, ha]

end Shows

end BmCore.Topology
