import BmCore.Library.Bytes
import Mathlib.Logic.Function.Basic

/-!
# Topology discovery

`integrations/topology.c` with the part of `bcmp/neighbors.c` it uses. The entries are cells of a
memory, linked in both directions. A result of `none` is a call that does not come back: it follows
a pointer to no entry, reads behind a neighbor table or never leaves a loop.

The event task receives an event and handles it; requests to start, replies and the expiry of the
timer may come in between.
-/
namespace BmCore.Topology
open Library

/-! ## Neighbor tables -/

structure BcmpPortInfo where
  state : Bool
  type : UInt8
  deriving DecidableEq

structure BcmpNeighborInfo where
  nodeId : Nat
  port : UInt8
  online : UInt8
  deriving DecidableEq

/-- A reply with as many ports and neighbors as it announces. -/
structure BcmpNeighborTableReply where
  nodeId : Nat
  portList : List BcmpPortInfo
  neighborList : List BcmpNeighborInfo
  deriving DecidableEq

namespace BcmpNeighborTableReply
variable (reply : BcmpNeighborTableReply)

/-- The bytes from `port_list` on. -/
def body : List UInt8 :=
  reply.portList.flatMap (fun port => [if port.state then 1 else 0, port.type]) ++
    reply.neighborList.flatMap fun info => leBytes 8 info.nodeId ++ [info.port, info.online]

/-- `port_list[i].state` -/
def portState (i : Nat) : Option Bool := reply.body[2 * i]?.map (· != 0)

/-- The loop of `network_topology_check_all_ports_explored`. Ports are counted from 1. -/
def neighborsOnlineCount : Option Nat :=
  reply.neighborList.foldlM (fun count info =>
    (reply.portState (info.port - 1).toNat).map fun up => if up then count + 1 else count) 0

/-- What `bcmp_send_neighbor_table` sends: `num_neighbors` is a `uint8_t`, and every neighbor is on
a port of the node. -/
def WellFormed : Prop :=
  reply.neighborList.length < 256 ∧
    ∀ info ∈ reply.neighborList, 1 ≤ info.port.toNat ∧ info.port.toNat ≤ reply.portList.length

instance : Decidable reply.WellFormed := by
  unfold WellFormed
  infer_instance

end BcmpNeighborTableReply

/-! ## The list of entries -/

structure NeighborTableEntry where
  prevNode : Option Nat
  nextNode : Option Nat
  portsExplored : Nat
  isRoot : Bool
  neighborTableReply : BcmpNeighborTableReply

structure NetworkTopology where
  front : Option Nat
  back : Option Nat
  cursor : Option Nat
  /-- A `uint8_t`. -/
  length : Nat
  index : Int

/-- A topology and the memory of its entries. -/
structure TopologyMem where
  heap : Nat → Option NeighborTableEntry
  net : NetworkTopology

/-- `new_network_topology` -/
def newNetworkTopology : NetworkTopology := ⟨none, none, none, 0, -1⟩

namespace TopologyMem
variable (m : TopologyMem)

def get (p : Option Nat) : Option NeighborTableEntry := p.bind m.heap

/-- An entry is written through a pointer. -/
def modify (p : Option Nat) (f : NeighborTableEntry → NeighborTableEntry) : Option TopologyMem := do
  let a ← p
  let entry ← m.heap a
  some { m with heap := Function.update m.heap a (some (f entry)) }

/-- `network_topology_move_to_front` -/
def moveToFront : TopologyMem :=
  if m.net.length ≠ 0 then { m with net := { m.net with cursor := m.net.front, index := 0 } } else m

/-- `network_topology_move_prev` -/
def movePrev : Option TopologyMem :=
  if m.net.index > 0 then do
    let entry ← m.get m.net.cursor
    some { m with net := { m.net with cursor := entry.prevNode, index := m.net.index - 1 } }
  else some m

/-- `network_topology_move_next` -/
def moveNext : Option TopologyMem :=
  if m.net.index < (m.net.length : Int) - 1 then do
    let entry ← m.get m.net.cursor
    some { m with net := { m.net with cursor := entry.nextNode, index := m.net.index + 1 } }
  else some m

/-- The assignments for the first entry of a list. -/
def first (entry : Nat) : Option TopologyMem := do
  let m ← m.modify (some entry) fun e => { e with prevNode := none, nextNode := none }
  some { m with
    net := { m.net with front := some entry, back := some entry, index := m.net.index + 1 } }

def lengthInc : TopologyMem := { m with net := { m.net with length := (m.net.length + 1) % 256 } }

/-- `network_topology_prepend` -/
def prepend (entry : Nat) : Option TopologyMem := do
  let m ← if m.net.length = 0 then m.first entry
    else do
      let m ← m.modify (some entry) fun e => { e with nextNode := m.net.front }
      let m ← m.modify m.net.front fun e => { e with prevNode := some entry }
      some { m with net := { m.net with front := some entry } }
  let m := m.lengthInc
  if m.net.index ≥ 0 then some { m with net := { m.net with index := m.net.index + 1 } } else some m

/-- `network_topology_append` -/
def append (entry : Nat) : Option TopologyMem := do
  let m ← if m.net.length = 0 then m.first entry
    else do
      let m ← m.modify (some entry) fun e => { e with prevNode := m.net.back }
      let m ← m.modify m.net.back fun e => { e with nextNode := some entry }
      some { m with net := { m.net with back := some entry } }
  some m.lengthInc

/-- `network_topology_insert_after` -/
def insertAfter (entry : Nat) : Option TopologyMem :=
  if m.net.length = 0 then m.append entry
  else if m.net.index = (m.net.length : Int) - 1 then m.append entry
  else do
    let next := (← m.get m.net.cursor).nextNode
    let m ← m.modify (some entry) fun e => { e with nextNode := next }
    let m ← m.modify next fun e => { e with prevNode := some entry }
    let m ← m.modify (some entry) fun e => { e with prevNode := m.net.cursor }
    let m ← m.modify m.net.cursor fun e => { e with nextNode := some entry }
    some m.lengthInc

/-- `network_topology_insert_before` -/
def insertBefore (entry : Nat) : Option TopologyMem :=
  if m.net.length = 0 then m.prepend entry
  else if m.net.index = 0 then m.prepend entry
  else do
    let prev := (← m.get m.net.cursor).prevNode
    let m ← m.modify prev fun e => { e with nextNode := some entry }
    let m ← m.modify (some entry) fun e => { e with nextNode := m.net.cursor }
    let m ← m.modify (some entry) fun e => { e with prevNode := prev }
    let m ← m.modify m.net.cursor fun e => { e with prevNode := some entry }
    let m := m.lengthInc
    some { m with net := { m.net with index := m.net.index + 1 } }

/-- `free_neighbor_table_entry` -/
def freeEntry (p : Option Nat) : Option TopologyMem := do
  let a ← p
  let _ ← m.heap a
  some { m with heap := Function.update m.heap a none }

/-- `network_topology_delete_back` -/
def deleteBack : Option TopologyMem :=
  if m.net.length = 0 then some m
  else do
    let temp := m.net.back
    let m ← if m.net.length > 1 then do
        let back := (← m.get m.net.back).prevNode
        let m := { m with net := { m.net with back } }
        let m ← m.modify back fun e => { e with nextNode := none }
        if m.net.index = (m.net.length : Int) - 1 then
          some { m with net := { m.net with cursor := m.net.back } }
        else some m
      else some { m with net :=
        { m.net with cursor := none, back := none, front := none, index := -1 } }
    let m := { m with net := { m.net with length := m.net.length - 1 } }
    m.freeEntry temp

def clearLoop : Nat → TopologyMem → Option TopologyMem
  | 0, m => some m
  | length + 1, m => do
    let m ← m.deleteBack
    clearLoop length m

/-- `network_topology_clear` -/
def clear : Option TopologyMem := m.clearLoop m.net.length

/-- `network_topology_increment_port_count` -/
def incrementPortCount : Option TopologyMem :=
  match m.net.cursor with
  | none => some m
  | some cursor => m.modify (some cursor) fun e =>
    { e with portsExplored := (e.portsExplored + 1) % 256 }

/-- `network_topology_get_port_count`, an `int8_t`. -/
def getPortCount : Option Int :=
  match m.net.cursor with
  | none => some (-1)
  | some cursor => (m.heap cursor).map fun e =>
    if e.portsExplored < 128 then e.portsExplored else (e.portsExplored : Int) - 256

/-- `network_topology_is_root` -/
def isRoot : Option Bool :=
  match m.net.cursor with
  | none => some false
  | some cursor => (m.heap cursor).map (·.isRoot)

/-- The loop of `network_topology_node_id_in_topology`; a walk of more than `fuel` entries never
ends. -/
def nodeIdFrom (nodeId : Nat) : (fuel : Nat) → Option Nat → Option Bool
  | _, none => some false
  | 0, some _ => none
  | fuel + 1, some a => do
    let entry ← m.heap a
    if entry.neighborTableReply.nodeId = nodeId then some true
    else nodeIdFrom nodeId fuel entry.nextNode

/-- `network_topology_node_id_in_topology` in a memory of at most `fuel` entries. -/
def nodeIdInTopology (fuel nodeId : Nat) : Option Bool := m.nodeIdFrom nodeId fuel m.net.front

def firstUnknown (fuel : Nat) : List BcmpNeighborInfo → Option (Option Nat)
  | [] => some none
  | info :: neighbors => do
    if ← m.nodeIdInTopology fuel info.nodeId then firstUnknown fuel neighbors
    else some (some info.nodeId)

/-- `network_topology_check_neighbor_node_ids`. The counter is a `uint8_t`: with 256 neighbors or
more the loop starts again. -/
def checkNeighborNodeIds (fuel : Nat) : Option Nat := do
  let cursor ← m.get m.net.cursor
  let neighbors := cursor.neighborTableReply.neighborList
  match ← m.firstUnknown fuel (neighbors.take 256) with
  | some nodeId => some nodeId
  | none => if neighbors.length < 256 then some 0 else none

/-- `network_topology_check_all_ports_explored` -/
def checkAllPortsExplored : Option Bool := do
  let cursor ← m.get m.net.cursor
  let count ← cursor.neighborTableReply.neighborsOnlineCount
  some (count == cursor.portsExplored)

end TopologyMem

/-! ## The event task -/

/-- `bcmp_topo_evt_queue_len` -/
def bcmpTopoEvtQueueLen : Nat := 32

/-- `topology_retries` -/
def topologyRetries : Nat := 3

inductive BcmpTopoQueueItem where
  | start (callback : Nat)
  | checkNode
  | addNode (entry : Nat)
  | timeout
  | done
  deriving DecidableEq

/-- An event of a session. -/
def BcmpTopoQueueItem.isSession : BcmpTopoQueueItem → Bool
  | start _ => false
  | _ => true

/-- A call of a callback, with what it was given. -/
structure Call where
  callback : Nat
  topology : Option TopologyMem

/-- `CTX` and the other variables of `topology.c`, and those of `neighbors.c` for a request. -/
structure TopoContext where
  evtQueue : List BcmpTopoQueueItem
  /-- What the task has received and not yet handled. -/
  item : Option BcmpTopoQueueItem
  heap : Nat → Option NeighborTableEntry
  /-- The address of the next entry. -/
  fresh : Nat
  networkTopology : Option NetworkTopology
  inProgress : Bool
  callback : Option Nat
  sentRequest : Bool
  insertBefore : Bool
  /-- A `uint8_t`. -/
  retryCount : Nat
  targetNodeId : Nat
  neighborRequestCb : Bool
  /-- `NEIGHBOR_TIMER` is running. -/
  timerRunning : Bool
  /-- The requests to start that were queued, and the calls of callbacks. -/
  started : List Nat
  calls : List Call

def TopoContext.init : TopoContext :=
  ⟨[], none, fun _ => none, 0, none, false, none, false, false, 0, 0, false, false, [], []⟩

/-- The own neighbor table, and which allocations and calls succeed. -/
structure HandleEnv where
  own : BcmpNeighborTableReply
  topologyAlloc : Bool := true
  entryAlloc : Bool := true
  tableAlloc : Bool := true
  timerCreated : Bool := true
  timerStarted : Bool := true
  sent : Bool := true

namespace TopoContext
variable (s : TopoContext)

/-- `bm_queue_send` -/
def bmQueueSend (item : BcmpTopoQueueItem) : TopoContext :=
  if s.evtQueue.length < bcmpTopoEvtQueueLen then { s with evtQueue := s.evtQueue ++ [item] } else s

/-- `topology_end` -/
def topologyEnd : TopoContext := s.bmQueueSend .done

/-- An operation on the topology, which does nothing on a null pointer. -/
def onTopology (f : TopologyMem → Option TopologyMem) : Option TopoContext :=
  match s.networkTopology with
  | none => some s
  | some net => (f ⟨s.heap, net⟩).map fun m =>
    { s with heap := m.heap, networkTopology := some m.net }

/-- A question about the topology, with the answer for a null pointer. -/
def ask {α : Type} (null : α) (f : TopologyMem → Option α) : Option α :=
  match s.networkTopology with
  | none => some null
  | some net => f ⟨s.heap, net⟩

/-- A new entry, zeroed but for its table. -/
def newEntry (isRoot : Bool) (reply : BcmpNeighborTableReply) : TopoContext :=
  { s with
    heap := Function.update s.heap s.fresh (some ⟨none, none, 0, isRoot, reply⟩)
    fresh := s.fresh + 1 }

/-- The cursor goes towards the root. -/
def moveBack : Option TopoContext :=
  if s.insertBefore then s.onTopology TopologyMem.moveNext else s.onTopology TopologyMem.movePrev

/-- `free_network_topology` -/
def freeNetworkTopology : Option TopoContext := do
  let s ← s.onTopology TopologyMem.clear
  some { s with networkTopology := none }

/-- `process_start_topology_event` -/
def processStartTopologyEvent (env : HandleEnv) : Option (TopoContext × Bool) :=
  if !env.topologyAlloc then some ({ s with networkTopology := none }, false)
  else
    let s := { s with networkTopology := some newNetworkTopology }
    if !env.entryAlloc || !env.tableAlloc then do
      let s ← s.freeNetworkTopology
      some (s, false)
    else do
      let entry := s.fresh
      let s ← (s.newEntry true env.own).onTopology (·.append entry)
      let s ← s.onTopology fun m => some m.moveToFront
      some (s.bmQueueSend .checkNode, true)

/-- `bcmp_request_neighbor_table` -/
def bcmpRequestNeighborTable (nodeId : Nat) (env : HandleEnv) : TopoContext × Bool :=
  let s := { s with targetNodeId := nodeId, timerRunning := false }
  if !env.timerCreated then (s, false)
  else
    ({ s with timerRunning := env.timerStarted, neighborRequestCb := true },
      env.timerStarted && env.sent)

/-- `process_check_node_event` -/
def processCheckNodeEvent (env : HandleEnv) : Option TopoContext := do
  if ← s.ask false TopologyMem.checkAllPortsExplored then
    if ← s.ask false TopologyMem.isRoot then some s.topologyEnd
    else do
      let s ← s.moveBack
      some (s.bmQueueSend .checkNode)
  else do
    let isRoot ← s.ask false TopologyMem.isRoot
    let portCount ← s.ask (-1) TopologyMem.getPortCount
    let s := if isRoot ∧ portCount = 1 then { s with insertBefore := true } else s
    let newNode ← s.ask 0 fun m => m.checkNeighborNodeIds s.fresh
    if newNode ≠ 0 then
      let (s, ok) := s.bcmpRequestNeighborTable newNode env
      some (if ok then s else s.topologyEnd)
    else do
      let s ← s.moveBack
      some (s.bmQueueSend .checkNode)

/-- The case `BcmpTopoEvtStart` of `bcmp_topology_thread`. -/
def handleStart (callback : Nat) (env : HandleEnv) : Option TopoContext := do
  if s.inProgress then some { s with calls := s.calls ++ [⟨callback, none⟩] }
  else
    let (s, ok) ← s.processStartTopologyEvent env
    if ok then some { s with inProgress := true, sentRequest := true, callback := some callback }
    else some { s with calls := s.calls ++ [⟨callback, none⟩] }

/-- The case `BcmpTopoEvtAddNode`. -/
def handleAddNode (entry : Nat) : Option TopoContext := do
  let e ← s.heap entry
  let s ←
    if ← s.ask false fun m => m.nodeIdInTopology s.fresh e.neighborTableReply.nodeId then
      some { s with heap := Function.update s.heap entry none }
    else do
      let s ← if s.insertBefore then do
          let s ← s.onTopology (·.insertBefore entry)
          s.onTopology TopologyMem.movePrev
        else do
          let s ← s.onTopology (·.insertAfter entry)
          s.onTopology TopologyMem.moveNext
      s.onTopology TopologyMem.incrementPortCount
  some (s.bmQueueSend .checkNode)

/-- The case `BcmpTopoEvtEnd`. -/
def handleEnd : Option TopoContext := do
  let topology := s.networkTopology.map (TopologyMem.mk s.heap)
  let calls := s.callback.toList.map fun callback => Call.mk callback topology
  let s ← { s with calls := s.calls ++ calls }.freeNetworkTopology
  some { s with insertBefore := false, retryCount := 0, sentRequest := false, inProgress := false }

/-- The case `BcmpTopoEvtTimeout`. -/
def handleTimeout : Option TopoContext := do
  let s := { s with retryCount := (s.retryCount + 1) % 256 }
  let s ← if s.retryCount ≥ topologyRetries then do
      let s ← s.onTopology TopologyMem.incrementPortCount
      s.moveBack
    else some s
  some (s.bmQueueSend .checkNode)

/-- The body of the loop of `bcmp_topology_thread` behind `bm_queue_receive`. -/
def handle (env : HandleEnv) : Option TopoContext :=
  let s' := { s with item := none }
  match s.item with
  | none => some s
  | some (.start callback) => s'.handleStart callback env
  | some (.addNode entry) => s'.handleAddNode entry
  | some .checkNode => s'.processCheckNodeEvent env
  | some .done => s'.handleEnd
  | some .timeout => s'.handleTimeout

/-- `bm_queue_receive` in `bcmp_topology_thread`. -/
def receive : TopoContext :=
  match s.item, s.evtQueue with
  | none, item :: evtQueue => { s with item := some item, evtQueue }
  | _, _ => s

/-! ## Other tasks -/

/-- `bcmp_topology_start` -/
def bcmpTopologyStart (callback : Nat) : TopoContext :=
  if s.evtQueue.length < bcmpTopoEvtQueueLen then
    { s.bmQueueSend (.start callback) with started := s.started ++ [callback] }
  else s

/-- `topology_timer_handler`, when `NEIGHBOR_TIMER` expires. -/
def topologyTimerHandler : TopoContext :=
  if s.timerRunning then { s with timerRunning := false }.bmQueueSend .timeout else s

/-- `neighbor_request_cb` -/
def neighborRequestCallback (reply : BcmpNeighborTableReply) (entryAlloc tableAlloc : Bool) :
    Option TopoContext :=
  if !s.sentRequest then some s
  else if !entryAlloc || !tableAlloc then some s.topologyEnd
  else do
    let entry := s.fresh
    let s := { s.newEntry false reply with retryCount := 0 }
    let s ← s.onTopology TopologyMem.incrementPortCount
    some (s.bmQueueSend (.addNode entry))

/-- `bcmp_process_neighbor_table_reply`; `stopped` is the success of `bm_timer_stop`. -/
def bcmpProcessNeighborTableReply (reply : BcmpNeighborTableReply)
    (stopped entryAlloc tableAlloc : Bool) : Option TopoContext :=
  if s.targetNodeId ≠ reply.nodeId then some s
  else do
    let s := if stopped then { s with timerRunning := false } else s
    if s.neighborRequestCb then
      let s ← if stopped then s.neighborRequestCallback reply entryAlloc tableAlloc else some s
      some { s with neighborRequestCb := false }
    else some s

end TopoContext

/-- A step of one of the tasks. -/
inductive TopoMove where
  | start (callback : Nat)
  | receive
  | handle (env : HandleEnv)
  | reply (reply : BcmpNeighborTableReply) (stopped entryAlloc tableAlloc : Bool)
  | timer

def topoStep (s : TopoContext) : TopoMove → Option TopoContext
  | .start callback => some (s.bcmpTopologyStart callback)
  | .receive => some s.receive
  | .handle env => s.handle env
  | .reply reply stopped entryAlloc tableAlloc =>
    s.bcmpProcessNeighborTableReply reply stopped entryAlloc tableAlloc
  | .timer => some s.topologyTimerHandler

end BmCore.Topology
