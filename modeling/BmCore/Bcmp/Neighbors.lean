import BmCore.Common.Util
import Mathlib.Data.List.AList

/-!
# The neighbor table

`bcmp/neighbors.c` and `bcmp/heartbeat.c`, and the part of `bcmp/info.c` that changes the table: a
singly linked list in memory of the nodes heard on the ports of this one. An operation that touches
an address outside the memory has no result, nor has a walk that never ends.

What other parts of the stack answer comes with each action: the tick count, the addresses that
`bm_malloc` returns, and what `ll_get_item` finds in the list of pending info requests.
-/
namespace BmCore.Bcmp

/-- `BcmpDeviceInfo` -/
structure BcmpDeviceInfo where
  nodeId : UInt64
  vendorId : UInt16
  productId : UInt16
  serialNum : List UInt8
  gitSha : UInt32
  verMajor : UInt8
  verMinor : UInt8
  verRev : UInt8
  verHw : UInt8
  deriving DecidableEq, Repr

/-- The device info of a neighbor that has not sent one. -/
def BcmpDeviceInfo.zero : BcmpDeviceInfo := ⟨0, 0, 0, List.replicate 16 0, 0, 0, 0, 0, 0⟩

/-- `BcmpDeviceInfoReply`, with the two strings as their lengths delimit them. -/
structure BcmpDeviceInfoReply where
  info : BcmpDeviceInfo
  verStr : List UInt8
  devName : List UInt8
  deriving DecidableEq, Repr

/-- `BcmpHeartbeat` -/
structure BcmpHeartbeat where
  timeSinceBootUs : UInt64
  livelinessLeaseDurS : UInt32
  deriving DecidableEq, Repr

/-- `BcmpNeighbor` without its link; the strings are what their pointers point to. -/
structure Neighbor where
  nodeId : UInt64
  port : UInt8
  lastHeartbeatTicks : UInt32 := 0
  lastTimeSinceBootUs : UInt64 := 0
  heartbeatPeriodS : UInt32 := 0
  online : Bool := false
  info : BcmpDeviceInfo := .zero
  versionStr : Option (List UInt8) := none
  deviceName : Option (List UInt8) := none
  deriving DecidableEq, Repr

/-! ## One neighbor -/

/-- `neighbor_reset` of `bcmp_process_heartbeat`. -/
def neighborReset (heartbeat : BcmpHeartbeat) (neighbor : Neighbor) : Bool :=
  heartbeat.timeSinceBootUs < neighbor.lastTimeSinceBootUs

/-- The times that a heartbeat updates. -/
def Neighbor.beat (heartbeat : BcmpHeartbeat) (ticks : UInt32) (n : Neighbor) : Neighbor :=
  { n with
    lastTimeSinceBootUs := heartbeat.timeSinceBootUs
    heartbeatPeriodS := heartbeat.livelinessLeaseDurS
    lastHeartbeatTicks := ticks
    online := true }

/-- The neighbor has been silent for two heartbeat periods. -/
def expired (msToTicks : UInt32 → UInt32) (ticks : UInt32) (n : Neighbor) : Bool :=
  timeRemaining n.lastHeartbeatTicks ticks (msToTicks (2 * n.heartbeatPeriodS * 1000)) == 0

/-- A string of a neighbor after a reply: it is replaced by a longer one than none, if there is
memory for it. -/
def replaceString (old : Option (List UInt8)) (new : List UInt8) (ok : Bool) :
    Option (List UInt8) :=
  if new.length ≠ 0 then if ok then some new else none else old

/-- `populate_neighbor_info`, with the answers of the two calls of `bm_malloc`. -/
def populateNeighborInfo (reply : BcmpDeviceInfoReply) (ok : Bool × Bool) (n : Neighbor) :
    Neighbor :=
  { n with
    info := reply.info
    nodeId := reply.info.nodeId
    versionStr := replaceString n.versionStr reply.verStr ok.1
    deviceName := replaceString n.deviceName reply.devName ok.2 }

/-! ## The table -/

/-- `BcmpNeighbor` in memory. -/
structure BcmpNeighbor where
  next : Option Nat
  neighbor : Neighbor
  deriving DecidableEq, Repr

/-- A call that leaves the module. -/
inductive NeighborCall where
  | discovery (discovered : Bool) (neighbor : Neighbor)
  | requestInfo (targetNodeId : UInt64)
  deriving DecidableEq, Repr

/-- The static variables of `neighbors.c` and the expected node of `info.c`, with the calls made so
far, latest first. -/
structure Neighborhood where
  heap : AList fun _ : Nat => BcmpNeighbor
  neighbors : Option Nat
  numNeighbors : UInt8
  discoveryCb : Bool
  infoExpectNodeId : UInt64
  calls : List NeighborCall

namespace Neighborhood

/-- The table at boot, with or without a discovery callback. -/
def init (discoveryCb : Bool) : Neighborhood := ⟨∅, none, 0, discoveryCb, 0, []⟩

/-- No walk meets more neighbors than the memory holds. -/
def fuel (s : Neighborhood) : Nat := s.heap.keys.length

/-- The neighbors from a pointer on. -/
def listFrom (heap : AList fun _ : Nat => BcmpNeighbor) : Nat → Option Nat → List Neighbor
  | fuel + 1, some a =>
    match heap.lookup a with
    | some cell => cell.neighbor :: listFrom heap fuel cell.next
    | none => []
  | _, _ => []

/-- The neighbors in the order of the list. -/
def list (s : Neighborhood) : List Neighbor := listFrom s.heap s.fuel s.neighbors

/-- The node ids in the order of the list. -/
def ids (s : Neighborhood) : List UInt64 := s.list.map (·.nodeId)

/-- `bcmp_neighbor_invoke_discovery_cb` -/
def bcmpNeighborInvokeDiscoveryCb (discovered : Bool) (neighbor : Neighbor) (s : Neighborhood) :
    Neighborhood :=
  if s.discoveryCb then { s with calls := .discovery discovered neighbor :: s.calls } else s

/-- Change the neighbor at an address in place. -/
def modify (a : Nat) (f : Neighbor → Neighbor) (s : Neighborhood) : Option Neighborhood := do
  let cell ← s.heap.lookup a
  some { s with heap := s.heap.insert a { cell with neighbor := f cell.neighbor } }

/-! ## Lookup and removal -/

/-- The loop of `bcmp_find_neighbor`. -/
def findLoop (heap : AList fun _ : Nat => BcmpNeighbor) (nodeId : UInt64) :
    Nat → Option Nat → Option (Option Nat)
  | _, none => some none
  | 0, some _ => none
  | fuel + 1, some a => do
    let cell ← heap.lookup a
    if nodeId ≠ 0 ∧ nodeId = cell.neighbor.nodeId then some (some a)
    else findLoop heap nodeId fuel cell.next

/-- `bcmp_find_neighbor` -/
def bcmpFindNeighbor (nodeId : UInt64) (s : Neighborhood) : Option (Option Nat) :=
  findLoop s.heap nodeId s.fuel s.neighbors

/-- The loop of `bcmp_remove_neighbor_from_table`: the neighbor before `a`, if there is one. -/
def beforeLoop (heap : AList fun _ : Nat => BcmpNeighbor) (a : Nat) : Nat → Nat →
    Option (Option Nat)
  | 0, _ => none
  | fuel + 1, b => do
    let cell ← heap.lookup b
    match cell.next with
    | none => some none
    | some c => if c = a then some (some b) else beforeLoop heap a fuel c

/-- `bcmp_remove_neighbor_from_table` of the neighbor at `a`, which is freed in any case. -/
def bcmpRemoveNeighborFromTable (a : Nat) (s : Neighborhood) : Option Neighborhood := do
  let cell ← s.heap.lookup a
  if s.neighbors = some a then
    some { s with heap := s.heap.erase a, neighbors := cell.next }
  else do
    let first ← s.neighbors
    match ← beforeLoop s.heap a s.fuel first with
    | some b => do
      let before ← s.heap.lookup b
      some { s with heap := (s.heap.insert b { before with next := cell.next }).erase a }
    | none => some { s with heap := s.heap.erase a }

/-! ## New neighbors -/

/-- The first loop of `bcmp_add_neighbor`: drop the neighbors on the port. After a removal the walk
goes on behind the neighbor with the node id that followed. -/
def clearPortLoop (port : UInt8) : Nat → Nat → Neighborhood → Option Neighborhood
  | 0, _, _ => none
  | fuel + 1, a, s => do
    let cell ← s.heap.lookup a
    let nodeId ← match cell.next with
      | some b => (s.heap.lookup b).map fun next => next.neighbor.nodeId
      | none => some cell.neighbor.nodeId
    let (s, current) ← if cell.neighbor.port = port then do
        let s ← s.bcmpRemoveNeighborFromTable a
        let found ← s.bcmpFindNeighbor nodeId
        some (s, found)
      else some (s, some a)
    match current with
    | none => some s
    | some c => do
      let cell ← s.heap.lookup c
      match cell.next with
      | none => some s
      | some d => clearPortLoop port fuel d s

/-- Drop the neighbors on the port, if there are any neighbors. -/
def clearPort (port : UInt8) (s : Neighborhood) : Option Neighborhood :=
  match s.neighbors with
  | some first => s.clearPortLoop port s.fuel first
  | none => some s

/-- The second loop of `bcmp_add_neighbor`: the last neighbor, or none when one before it has the
node id. -/
def lastLoop (heap : AList fun _ : Nat => BcmpNeighbor) (nodeId : UInt64) :
    Nat → Nat → Option (Option Nat)
  | 0, _ => none
  | fuel + 1, a => do
    let cell ← heap.lookup a
    match cell.next with
    | none => some (some a)
    | some b => if nodeId = cell.neighbor.nodeId then some none else lastLoop heap nodeId fuel b

/-- The address `bm_malloc` returns is not in use. -/
def malloc (s : Neighborhood) (answer : Option Nat) : Option Nat := answer.filter (· ∉ s.heap)

/-- The end of `bcmp_add_neighbor`: link the new neighbor behind the last one, or free it. -/
def linkNeighbor (new : Nat) (nodeId : UInt64) (s : Neighborhood) :
    Option (Option Nat × Neighborhood) :=
  match s.neighbors with
  | none => some (some new, { s with neighbors := some new })
  | some first => do
    match ← lastLoop s.heap nodeId s.fuel first with
    | some last => do
      let cell ← s.heap.lookup last
      some (some new, { s with heap := s.heap.insert last { cell with next := some new } })
    | none => some (none, { s with heap := s.heap.erase new })

/-- `bcmp_add_neighbor`: the address of the new neighbor, if there is one. -/
def bcmpAddNeighbor (nodeId : UInt64) (port : UInt8) (answer : Option Nat) (s : Neighborhood) :
    Option (Option Nat × Neighborhood) :=
  match s.malloc answer with
  | none => some (none, s)
  | some new => do
    let s := { s with heap := s.heap.insert new ⟨none, { nodeId := nodeId, port := port }⟩ }
    let s ← s.clearPort port
    s.linkNeighbor new nodeId

/-- `bcmp_update_neighbor` -/
def bcmpUpdateNeighbor (nodeId : UInt64) (port : UInt8) (answer : Option Nat) (s : Neighborhood) :
    Option (Option Nat × Neighborhood) := do
  match ← s.bcmpFindNeighbor nodeId with
  | some a => some (some a, s)
  | none => do
    match ← s.bcmpAddNeighbor nodeId port answer with
    | (none, s) => some (none, s)
    | (some a, s) => do
      let cell ← s.heap.lookup a
      let s := s.bcmpNeighborInvokeDiscoveryCb true cell.neighbor
      some (some a, { s with calls := .requestInfo nodeId :: s.calls })

/-! ## Heartbeats -/

/-- The end of `bcmp_process_heartbeat`, for the neighbor at `a`. -/
def beatNeighbor (heartbeat : BcmpHeartbeat) (ticks : UInt32) (a : Nat) (s : Neighborhood) :
    Option (BmErr × Neighborhood) := do
  let cell ← s.heap.lookup a
  let neighbor := cell.neighbor
  let s := if !neighbor.online || neighborReset heartbeat neighbor then
    s.bcmpNeighborInvokeDiscoveryCb true neighbor else s
  let s := if neighborReset heartbeat neighbor then
    { s with calls := .requestInfo neighbor.info.nodeId :: s.calls } else s
  let s ← s.modify a (·.beat heartbeat ticks)
  some (.ok, s)

/-- `bcmp_process_heartbeat` of a message of the node `src` on the port `port`. -/
def bcmpProcessHeartbeat (src : UInt64) (port : UInt8) (heartbeat : BcmpHeartbeat) (ticks : UInt32)
    (answer : Option Nat) (s : Neighborhood) : Option (BmErr × Neighborhood) := do
  match ← s.bcmpUpdateNeighbor src port answer with
  | (none, s) => some (.einval, s)
  | (some a, s) => s.beatNeighbor heartbeat ticks a

/-! ## Liveness -/

/-- `neighbor_check` -/
def neighborCheck (msToTicks : UInt32 → UInt32) (ticks : UInt32) (a : Nat) (s : Neighborhood) :
    Option Neighborhood := do
  let cell ← s.heap.lookup a
  if cell.neighbor.online && expired msToTicks ticks cell.neighbor then
    (s.bcmpNeighborInvokeDiscoveryCb false cell.neighbor).modify a fun n =>
    { n with online := false }
  else some s

/-- The loop of `bcmp_neighbor_foreach` with `neighbor_check`; `ticks` is what the clock shows in
each round. -/
def checkLoop (msToTicks : UInt32 → UInt32) (ticks : Nat → UInt32) :
    Nat → Nat → Option Nat → Neighborhood → Option Neighborhood
  | _, _, none, s => some s
  | 0, _, some _, _ => none
  | fuel + 1, i, some a, s => do
    let s ← s.neighborCheck msToTicks (ticks i) a
    let s := { s with numNeighbors := s.numNeighbors + 1 }
    let cell ← s.heap.lookup a
    checkLoop msToTicks ticks fuel (i + 1) cell.next s

/-- `bcmp_check_neighbors` -/
def bcmpCheckNeighbors (msToTicks : UInt32 → UInt32) (ticks : Nat → UInt32) (s : Neighborhood) :
    Option Neighborhood :=
  checkLoop msToTicks ticks s.fuel 0 s.neighbors { s with numNeighbors := 0 }

/-- `bcmp_get_neighbors`: the head of the list and the number of neighbors. -/
def bcmpGetNeighbors (msToTicks : UInt32 → UInt32) (ticks : Nat → UInt32) (s : Neighborhood) :
    Option (Option Nat × UInt8 × Neighborhood) := do
  let s ← s.bcmpCheckNeighbors msToTicks ticks
  some (s.neighbors, s.numNeighbors, s)

/-! ## Device info -/

/-- `bcmp_process_info_reply`. The pending request for the node, if there is one, has a callback or
not; only without one the table is looked at. -/
def bcmpProcessInfoReply (reply : BcmpDeviceInfoReply) (pending : Option Bool) (ok : Bool × Bool)
    (s : Neighborhood) : Option Neighborhood :=
  match pending with
  | some false => do
    match ← s.bcmpFindNeighbor reply.info.nodeId with
    | some a => s.modify a (populateNeighborInfo reply ok)
    | none =>
      if s.infoExpectNodeId ≠ 0 ∧ reply.info.nodeId = s.infoExpectNodeId then
        some { s with infoExpectNodeId := 0 }
      else some s
  | _ => some s

end Neighborhood

/-! ## Actions -/

/-- What happens to the table. -/
inductive NeighborAction where
  | heartbeat (src : UInt64) (port : UInt8) (heartbeat : BcmpHeartbeat) (ticks : UInt32)
      (answer : Option Nat)
  | check (ticks : Nat → UInt32)
  | infoReply (reply : BcmpDeviceInfoReply) (pending : Option Bool) (ok : Bool × Bool)
  | expectInfo (nodeId : UInt64)

def Neighborhood.exec (msToTicks : UInt32 → UInt32) (s : Neighborhood) :
    NeighborAction → Option Neighborhood
  | .heartbeat src port heartbeat ticks answer =>
    (s.bcmpProcessHeartbeat src port heartbeat ticks answer).map Prod.snd
  | .check ticks => s.bcmpCheckNeighbors msToTicks ticks
  | .infoReply reply pending ok => s.bcmpProcessInfoReply reply pending ok
  | .expectInfo nodeId => some { s with infoExpectNodeId := nodeId }

/-- A heartbeat of a node, on one of the ports. -/
def NeighborAction.Valid : NeighborAction → Prop
  | .heartbeat src port _ _ _ => src ≠ 0 ∧ port < 16
  | _ => True

end BmCore.Bcmp
