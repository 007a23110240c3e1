import BmCore.Integrations.Topology

/-!
# Neighbor tables of any contents

`neighbor_request_cb` copies a reply behind the pointer it is given, with a length of 16 bits, and
the checks of a table index its ports with the port numbers in it and its neighbors with a counter,
of 8 bits in one of them. -/
namespace BmCore.Topology
open Library

/-! ## The tables -/

/-- The bytes at a `BcmpNeighborTableReply *`. -/
abbrev TableMemory := Nat → UInt8

namespace TableMemory
variable (table : TableMemory)

/-- `port_len`, behind the node id. -/
def portLen : Nat := (table 8).toNat

def neighborLen : Nat := leNat (peek table 9 2)

/-- Where the neighbor `i` stands: behind the header of 11 bytes and the ports of 2 bytes each. -/
def neighborOffset (i : Nat) : Nat := 11 + 2 * table.portLen + 10 * i

def neighborNodeId (i : Nat) : Nat := leNat (peek table (table.neighborOffset i) 8)

def neighborPort (i : Nat) : UInt8 := table (table.neighborOffset i + 8)

/-- `port_list[i].state` -/
def portState (i : Nat) : Bool := table (11 + 2 * i) != 0

/-- The size of all that the table announces. -/
def announcedLen : Nat := table.neighborOffset table.neighborLen

end TableMemory

/-- A table with the memory that was allocated for it. -/
structure TableCopy where
  size : Nat
  memory : TableMemory

/-- The copy that `neighbor_request_cb` makes; `beyond` is what lies behind it. -/
def copyReply (reply beyond : TableMemory) : TableCopy :=
  let neighborTableLen := UInt16.ofNat reply.announcedLen
  ⟨neighborTableLen.toNat, fun i => if i < neighborTableLen.toNat then reply i else beyond i⟩

/-! ## The checks -/

/-- An element of one of the lists of a table. -/
inductive TableIndex where
  | port (i : Nat)
  | neighbor (i : Nat)
  deriving DecidableEq

/-- The element is in its list, and the list is there. -/
def TableIndex.Inside (copy : TableCopy) : TableIndex → Prop
  | .port i => i < copy.memory.portLen ∧ 11 + 2 * (i + 1) ≤ copy.size
  | .neighbor i =>
    i < copy.memory.neighborLen ∧ copy.memory.neighborOffset (i + 1) ≤ copy.size

namespace TableMemory
variable (table : TableMemory)

/-- The loop of `network_topology_check_all_ports_explored`, for as many rounds as `fuel` allows,
with the elements it looks at. -/
def portsLoop : (fuel : Nat) → (neighborCount neighborsOnlineCount : UInt16) →
    Option (UInt16 × List TableIndex)
  | 0, _, _ => none
  | fuel + 1, neighborCount, neighborsOnlineCount =>
    let i := neighborCount.toNat
    if i < table.neighborLen then do
      let port := (table.neighborPort i - 1).toNat
      let online := if table.portState port then neighborsOnlineCount + 1 else neighborsOnlineCount
      let (online, used) ← portsLoop fuel (neighborCount + 1) online
      some (online, .neighbor i :: .port port :: used)
    else some (neighborsOnlineCount, [])

/-- `network_topology_check_all_ports_explored` -/
def checkAllPortsExplored (portsExplored : UInt8) (fuel : Nat) :
    Option (Bool × List TableIndex) := do
  let (online, used) ← table.portsLoop fuel 0 0
  some (online == portsExplored.toUInt16, used)

/-- The loop of `network_topology_check_neighbor_node_ids`, in a topology of nodes with the ids. -/
def nodeIdsLoop (ids : List Nat) : (fuel : Nat) → (neighborsCount : UInt8) →
    Option (Nat × List TableIndex)
  | 0, _ => none
  | fuel + 1, neighborsCount =>
    let i := neighborsCount.toNat
    if i < table.neighborLen then
      if table.neighborNodeId i ∈ ids then do
        let (found, used) ← nodeIdsLoop ids fuel (neighborsCount + 1)
        some (found, .neighbor i :: used)
      else some (table.neighborNodeId i, [.neighbor i])
    else some (0, [])

/-- `network_topology_check_neighbor_node_ids` -/
def checkNeighborNodeIds (ids : List Nat) (fuel : Nat) : Option (Nat × List TableIndex) :=
  table.nodeIdsLoop ids fuel 0

end TableMemory

/-- A reply is handled: it is copied whole, and both checks come to an end and look only at elements
of the lists in the copy. -/
structure HandlesReply (reply beyond : TableMemory) (ids : List Nat) (portsExplored : UInt8) :
    Prop where
  whole : (copyReply reply beyond).size = reply.announcedLen
  explored : ∃ fuel all used,
    (copyReply reply beyond).memory.checkAllPortsExplored portsExplored fuel = some (all, used) ∧
    ∀ index ∈ used, index.Inside (copyReply reply beyond)
  nodeIds : ∃ fuel found used,
    (copyReply reply beyond).memory.checkNeighborNodeIds ids fuel = some (found, used) ∧
    ∀ index ∈ used, index.Inside (copyReply reply beyond)

/-- What the code relies on: the table takes less than 2^16 bytes, every neighbor is on one of its
ports, and the 8-bit counter reaches the end of the neighbors or a neighbor that is not known. -/
structure Manageable (reply : TableMemory) (ids : List Nat) : Prop where
  short : reply.announcedLen < 2 ^ 16
  ports : ∀ i < reply.neighborLen,
    1 ≤ (reply.neighborPort i).toNat ∧ (reply.neighborPort i).toNat ≤ reply.portLen
  counted : reply.neighborLen < 256 ∨ ∃ i < 256, reply.neighborNodeId i ∉ ids

/-! ## The copy -/

section Copy
variable {reply : TableMemory} (beyond : TableMemory)

theorem copyReply_size (reply : TableMemory) :
    (copyReply reply beyond).size = reply.announcedLen % 2 ^ 16 := UInt16.toNat_ofNat'

/-- A copy of the whole table is equal to it. -/
theorem copyReply_memory (h : (copyReply reply beyond).size = reply.announcedLen) {i : Nat}
    (hi : i < reply.announcedLen) : (copyReply reply beyond).memory i = reply i :=
  if_pos (show i < (copyReply reply beyond).size from h ▸ hi)

theorem peek_copyReply (h : (copyReply reply beyond).size = reply.announcedLen) {off len : Nat}
    (hlen : off + len ≤ reply.announcedLen) :
    peek (copyReply reply beyond).memory off len = peek reply off len := by
  apply List.map_congr_left
  intro i hi
  rw [List.mem_range] at hi
  exact copyReply_memory beyond h (by omega)

theorem header_le_announcedLen (reply : TableMemory) : 11 ≤ reply.announcedLen := by
  unfold TableMemory.announcedLen TableMemory.neighborOffset
  omega

theorem copyReply_portLen (h : (copyReply reply beyond).size = reply.announcedLen) :
    (copyReply reply beyond).memory.portLen = reply.portLen := by
  have := header_le_announcedLen reply
  rw [TableMemory.portLen, copyReply_memory beyond h (by omega)]
  rfl

theorem copyReply_neighborLen (h : (copyReply reply beyond).size = reply.announcedLen) :
    (copyReply reply beyond).memory.neighborLen = reply.neighborLen := by
  rw [TableMemory.neighborLen, peek_copyReply beyond h (header_le_announcedLen reply)]
  rfl

theorem copyReply_neighborOffset (h : (copyReply reply beyond).size = reply.announcedLen)
    (i : Nat) : (copyReply reply beyond).memory.neighborOffset i = reply.neighborOffset i := by
  rw [TableMemory.neighborOffset, copyReply_portLen beyond h]
  rfl

theorem neighborOffset_le (table : TableMemory) {i : Nat} (hi : i < table.neighborLen) :
    table.neighborOffset (i + 1) ≤ table.announcedLen := by
  unfold TableMemory.announcedLen TableMemory.neighborOffset
  omega

theorem copyReply_neighborPort (h : (copyReply reply beyond).size = reply.announcedLen) {i : Nat}
    (hi : i < reply.neighborLen) :
    (copyReply reply beyond).memory.neighborPort i = reply.neighborPort i := by
  have hle := neighborOffset_le reply hi
  rw [TableMemory.neighborPort, copyReply_neighborOffset beyond h, copyReply_memory beyond h]
  · rfl
  · unfold TableMemory.neighborOffset at *
    omega

theorem copyReply_neighborNodeId (h : (copyReply reply beyond).size = reply.announcedLen) {i : Nat}
    (hi : i < reply.neighborLen) :
    (copyReply reply beyond).memory.neighborNodeId i = reply.neighborNodeId i := by
  have hle := neighborOffset_le reply hi
  rw [TableMemory.neighborNodeId, copyReply_neighborOffset beyond h, peek_copyReply beyond h]
  · rfl
  · unfold TableMemory.neighborOffset at *
    omega

end Copy

/-! ## The loops -/

section Loops
variable {table : TableMemory}

theorem neighborLen_lt (table : TableMemory) : table.neighborLen < 2 ^ 16 := by
  have hlt := leNat_lt (peek table 9 2)
  rwa [peek_length] at hlt

/-- The 16-bit counter reaches the end of the neighbors, each of which is looked at with its
port. -/
theorem portsLoop_eq (table : TableMemory) {rest : Nat} {neighborCount : UInt16}
    (hrest : neighborCount.toNat + rest = table.neighborLen) (fuel : Nat) (online : UInt16) :
    ∃ online', table.portsLoop fuel neighborCount online = if rest < fuel then some (online',
      (List.range' neighborCount.toNat rest).flatMap fun i =>
        [.neighbor i, .port (table.neighborPort i - 1).toNat]) else none := by
  induction rest generalizing fuel neighborCount online with
  | zero =>
    cases fuel with
    | zero => exact ⟨0, rfl⟩
    | succ fuel =>
      refine ⟨online, ?_⟩
      have hend : ¬ neighborCount.toNat < table.neighborLen := by omega
      rw [if_pos (Nat.succ_pos fuel), TableMemory.portsLoop]
      simp only [if_neg hend]
      rfl
  | succ rest ih =>
    cases fuel with
    | zero => exact ⟨0, rfl⟩
    | succ fuel =>
      have hgo : neighborCount.toNat < table.neighborLen := by omega
      have hlt := neighborLen_lt table
      have hnext : (neighborCount + 1).toNat = neighborCount.toNat + 1 := by
        rw [UInt16.toNat_add]
        change (neighborCount.toNat + 1) % 2 ^ 16 = _
        omega
      let port := (table.neighborPort neighborCount.toNat - 1).toNat
      have hrest' : (neighborCount + 1).toNat + rest = table.neighborLen := by omega
      obtain ⟨online', hloop⟩ := ih hrest' fuel
        (if table.portState port then online + 1 else online)
      refine ⟨online', ?_⟩
      rw [TableMemory.portsLoop]
      simp only [if_pos hgo, port, hnext] at hloop ⊢
      rw [hloop]
      by_cases hfuel : rest < fuel
      · rw [if_pos hfuel, if_pos (Nat.succ_lt_succ hfuel)]
        rfl
      · rw [if_neg hfuel, if_neg (mt Nat.lt_of_succ_lt_succ hfuel)]
        rfl

/-- Where the loop over the node ids stops. -/
def StopsAt (table : TableMemory) (ids : List Nat) (i : Nat) : Prop :=
  i < table.neighborLen → table.neighborNodeId i ∉ ids

/-- The loop over the node ids looks at neighbors only. -/
theorem nodeIdsLoop_used {ids : List Nat} {fuel : Nat} {neighborsCount : UInt8} {found : Nat}
    {used : List TableIndex}
    (h : table.nodeIdsLoop ids fuel neighborsCount = some (found, used)) :
    ∀ index ∈ used, ∃ i < table.neighborLen, index = .neighbor i := by
  induction fuel generalizing neighborsCount used with
  | zero => simp [TableMemory.nodeIdsLoop] at h
  | succ fuel ih =>
    rw [TableMemory.nodeIdsLoop] at h
    by_cases hlt : neighborsCount.toNat < table.neighborLen
    · by_cases hknown : table.neighborNodeId neighborsCount.toNat ∈ ids
      · simp only [if_pos hlt, if_pos hknown] at h
        obtain ⟨⟨found', used'⟩, hrest, h⟩ := Option.bind_eq_some_iff.mp h
        obtain ⟨rfl, rfl⟩ := Prod.mk.inj (Option.some.inj h)
        intro index hindex
        rcases List.mem_cons.mp hindex with rfl | hindex
        · exact ⟨_, hlt, rfl⟩
        · exact ih hrest index hindex
      · simp only [if_pos hlt, if_neg hknown, Option.some.injEq, Prod.mk.injEq] at h
        obtain ⟨-, rfl⟩ := h
        simpa using hlt
    · simp only [if_neg hlt, Option.some.injEq, Prod.mk.injEq] at h
      obtain ⟨-, rfl⟩ := h
      simp

/-- The loop comes to an end if its counter can reach a stop. -/
theorem nodeIdsLoop_ends {ids : List Nat} {stop rest : Nat} (hstop : StopsAt table ids stop)
    (hbyte : stop < 256) {neighborsCount : UInt8} (hrest : neighborsCount.toNat + rest = stop) :
    ∃ result, table.nodeIdsLoop ids (rest + 1) neighborsCount = some result := by
  induction rest generalizing neighborsCount with
  | zero =>
    rw [TableMemory.nodeIdsLoop]
    by_cases hlt : neighborsCount.toNat < table.neighborLen
    · obtain rfl : neighborsCount.toNat = stop := hrest
      have hunknown := hstop hlt
      simp only [if_pos hlt, if_neg hunknown]
      exact ⟨_, rfl⟩
    · simp only [if_neg hlt]
      exact ⟨_, rfl⟩
  | succ rest ih =>
    have hnext : (neighborsCount + 1).toNat = neighborsCount.toNat + 1 := by
      rw [UInt8.toNat_add]
      change (neighborsCount.toNat + 1) % 2 ^ 8 = _
      omega
    have hrest' : (neighborsCount + 1).toNat + rest = stop := by omega
    obtain ⟨result, hloop⟩ := ih hrest'
    rw [TableMemory.nodeIdsLoop]
    split
    · split
      · simp only [hloop]
        exact ⟨_, rfl⟩
      · exact ⟨_, rfl⟩
    · exact ⟨_, rfl⟩

/-- Without a stop that it can reach, the loop never ends: its counter starts again. -/
theorem nodeIdsLoop_endless {ids : List Nat} (h : ∀ i < 256, ¬ StopsAt table ids i) (fuel : Nat)
    (neighborsCount : UInt8) : table.nodeIdsLoop ids fuel neighborsCount = none := by
  induction fuel generalizing neighborsCount with
  | zero => rfl
  | succ fuel ih =>
    have hgo := h neighborsCount.toNat neighborsCount.toNat_lt
    simp only [StopsAt, Classical.not_imp, not_not] at hgo
    rw [TableMemory.nodeIdsLoop]
    simp only [if_pos hgo.1, if_pos hgo.2, ih]
    rfl

theorem stopsAt_iff {ids : List Nat} : (∃ i < 256, StopsAt table ids i) ↔
    table.neighborLen < 256 ∨ ∃ i < 256, table.neighborNodeId i ∉ ids := by
  constructor
  · rintro ⟨i, hi, hstop⟩
    by_cases hlt : i < table.neighborLen
    · exact .inr ⟨i, hi, hstop hlt⟩
    · exact .inl (by omega)
  · rintro (hlen | ⟨i, hi, hunknown⟩)
    · exact ⟨_, hlen, fun h => absurd h (lt_irrefl _)⟩
    · exact ⟨i, hi, fun _ => hunknown⟩

end Loops

/-! ## The replies that are handled -/

section Replies
variable (reply beyond : TableMemory) (ids : List Nat) (portsExplored : UInt8)

/-- A neighbor of a table that has been copied whole is inside. -/
theorem neighbor_inside {reply beyond : TableMemory}
    (h : (copyReply reply beyond).size = reply.announcedLen) {i : Nat}
    (hi : i < (copyReply reply beyond).memory.neighborLen) :
    (TableIndex.neighbor i).Inside (copyReply reply beyond) := by
  refine ⟨hi, ?_⟩
  rw [copyReply_neighborLen beyond h] at hi
  rw [copyReply_neighborOffset beyond h, h]
  exact neighborOffset_le reply hi

/-- A port of a table that has been copied whole is inside. -/
theorem port_inside {reply beyond : TableMemory}
    (h : (copyReply reply beyond).size = reply.announcedLen) {i : Nat} :
    (TableIndex.port i).Inside (copyReply reply beyond) ↔ i < reply.portLen := by
  rw [TableIndex.Inside, copyReply_portLen beyond h, h]
  refine ⟨And.left, fun hi => ⟨hi, ?_⟩⟩
  unfold TableMemory.announcedLen TableMemory.neighborOffset
  omega

/-- A port number minus one, in 8 bits, is an index of a port list exactly if it is between 1 and
the length of the list. -/
theorem port_sub_one_lt {port : UInt8} {portLen : Nat} (h : portLen < 256) :
    (port - 1).toNat < portLen ↔ 1 ≤ port.toNat ∧ port.toNat ≤ portLen := by
  have hport := port.toNat_lt
  rw [UInt8.toNat_sub]
  change (2 ^ 8 - 1 + port.toNat) % 2 ^ 8 < portLen ↔ _
  omega

variable {reply beyond ids portsExplored} in
/-- The check of the ports of a table that has been copied whole. -/
theorem checkAllPortsExplored_inside_iff
    (h : (copyReply reply beyond).size = reply.announcedLen) :
    (∃ fuel all used,
      (copyReply reply beyond).memory.checkAllPortsExplored portsExplored fuel = some (all, used) ∧
      ∀ index ∈ used, index.Inside (copyReply reply beyond)) ↔
    ∀ i < reply.neighborLen,
      1 ≤ (reply.neighborPort i).toNat ∧ (reply.neighborPort i).toNat ≤ reply.portLen := by
  have hlen := copyReply_neighborLen beyond h
  have hstart : (0 : UInt16).toNat + (copyReply reply beyond).memory.neighborLen =
      (copyReply reply beyond).memory.neighborLen := Nat.zero_add _
  have hinside : ∀ i < reply.neighborLen,
      ((TableIndex.port ((copyReply reply beyond).memory.neighborPort i - 1).toNat).Inside
        (copyReply reply beyond) ↔
      1 ≤ (reply.neighborPort i).toNat ∧ (reply.neighborPort i).toNat ≤ reply.portLen) := by
    intro i hi
    rw [port_inside h, copyReply_neighborPort beyond h hi]
    exact port_sub_one_lt (UInt8.toNat_lt _)
  constructor
  · rintro ⟨fuel, all, used, hcheck, hused⟩ i hi
    obtain ⟨⟨online', used'⟩, hrun, hresult⟩ := Option.bind_eq_some_iff.mp hcheck
    obtain ⟨-, rfl⟩ := Prod.mk.inj (Option.some.inj hresult)
    obtain ⟨online, hloop⟩ := portsLoop_eq (copyReply reply beyond).memory hstart fuel 0
    rw [hloop] at hrun
    split at hrun
    · obtain ⟨-, rfl⟩ := Prod.mk.inj (Option.some.inj hrun)
      refine (hinside i hi).mp (hused _ (List.mem_flatMap.mpr ⟨i, ?_, by simp⟩))
      rw [List.mem_range'_1]
      exact ⟨Nat.zero_le _, by rw [hlen]; simpa using hi⟩
    · exact absurd hrun (by simp)
  · intro hports
    obtain ⟨online, hloop⟩ := portsLoop_eq (copyReply reply beyond).memory hstart
      ((copyReply reply beyond).memory.neighborLen + 1) 0
    rw [if_pos (Nat.lt_succ_self _)] at hloop
    refine ⟨_, _, _, by rw [TableMemory.checkAllPortsExplored, hloop]; rfl, ?_⟩
    intro index hindex
    obtain ⟨i, hi, hindex⟩ := List.mem_flatMap.mp hindex
    rw [List.mem_range'_1] at hi
    have hi : i < (copyReply reply beyond).memory.neighborLen := by simpa using hi.2
    have hi' : i < reply.neighborLen := hlen ▸ hi
    rcases List.mem_cons.mp hindex with rfl | hindex
    · exact neighbor_inside h hi
    · obtain rfl := List.mem_singleton.mp hindex
      exact (hinside i hi').mpr (hports i hi')

variable {reply beyond ids} in
/-- The check of the node ids of a table that has been copied whole. -/
theorem checkNeighborNodeIds_inside_iff
    (h : (copyReply reply beyond).size = reply.announcedLen) :
    (∃ fuel found used,
      (copyReply reply beyond).memory.checkNeighborNodeIds ids fuel = some (found, used) ∧
      ∀ index ∈ used, index.Inside (copyReply reply beyond)) ↔
    reply.neighborLen < 256 ∨ ∃ i < 256, reply.neighborNodeId i ∉ ids := by
  have hstops : (∃ i < 256, StopsAt (copyReply reply beyond).memory ids i) ↔
      ∃ i < 256, StopsAt reply ids i := by
    simp only [StopsAt, copyReply_neighborLen beyond h]
    refine exists_congr fun i => and_congr_right fun _ => forall_congr' fun hi => ?_
    rw [copyReply_neighborNodeId beyond h hi]
  rw [← stopsAt_iff, ← hstops]
  constructor
  · rintro ⟨fuel, found, used, hcheck, -⟩
    by_contra hnone
    rw [TableMemory.checkNeighborNodeIds,
      nodeIdsLoop_endless (fun i hi hstop => hnone ⟨i, hi, hstop⟩)] at hcheck
    exact absurd hcheck (by simp)
  · rintro ⟨stop, hbyte, hstop⟩
    have hstart : (0 : UInt8).toNat + stop = stop := Nat.zero_add stop
    obtain ⟨⟨found, used⟩, hloop⟩ := nodeIdsLoop_ends hstop hbyte hstart
    refine ⟨stop + 1, found, used, hloop, fun index hindex => ?_⟩
    obtain ⟨i, hi, rfl⟩ := nodeIdsLoop_used hloop index hindex
    exact neighbor_inside h hi

/-- A reply is handled exactly if it is manageable. -/
theorem handlesReply_iff :
    HandlesReply reply beyond ids portsExplored ↔ Manageable reply ids := by
  have hsize := copyReply_size beyond reply
  have hwhole : (copyReply reply beyond).size = reply.announcedLen ↔
      reply.announcedLen < 2 ^ 16 := by omega
  constructor
  · rintro ⟨whole, explored, nodeIds⟩
    exact ⟨hwhole.mp whole, (checkAllPortsExplored_inside_iff whole).mp explored,
      (checkNeighborNodeIds_inside_iff whole).mp nodeIds⟩
  · rintro ⟨short, ports, counted⟩
    have whole := hwhole.mpr short
    exact ⟨whole, (checkAllPortsExplored_inside_iff whole).mpr ports,
      (checkNeighborNodeIds_inside_iff whole).mpr counted⟩

/-- One port and one neighbor, whose port number is 0. -/
def portZero : TableMemory := fun i =>
  [7, 0, 0, 0, 0, 0, 0, 0, 1, 1, 0, 1, 0, 8, 0, 0, 0, 0, 0, 0, 0, 0, 1].getD i 0

/-- 256 neighbors with one node id, all on port 1. -/
def crowd : TableMemory := fun i => if i = 8 ∨ i = 10 ∨ (13 ≤ i ∧ i % 10 = 1) then 1 else 0

/-- The port 0 makes the check of the ports look at `port_list[255]`; if the node id of the crowd is
known, the check of the node ids never ends. -/
theorem not_handlesReply :
    ¬ HandlesReply portZero (fun _ => 0) [7] 0 ∧ ¬ HandlesReply crowd (fun _ => 0) [0] 0 := by
  refine ⟨fun h => ?_, fun h => ?_⟩
  · have hport := (checkAllPortsExplored_inside_iff h.whole).mp h.explored 0 (by decide)
    exact absurd hport.1 (by decide)
  · have hends := (checkNeighborNodeIds_inside_iff h.whole).mp h.nodeIds
    rcases hends with hlen | ⟨i, hi, hid⟩
    · exact absurd hlen (by decide)
    · have hbytes : peek crowd (crowd.neighborOffset i) 8 = List.replicate 8 0 := by
        refine List.eq_replicate_of_mem fun b hb => ?_
        obtain ⟨j, hj, rfl⟩ := List.mem_map.mp hb
        have hoff : crowd.neighborOffset i = 13 + 10 * i := rfl
        rw [List.mem_range] at hj
        exact if_neg (by omega)
      exact hid (by rw [TableMemory.neighborNodeId, hbytes]; decide)

end Replies

end BmCore.Topology
