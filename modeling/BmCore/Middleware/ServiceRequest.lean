import BmCore.Middleware.Service

/-!
# Service requests

`middleware/bm_service_request.c`. A request links its node before it subscribes to the topic of the
reply and sends its message. Replies and ticks of the expiry timer may come in between. Where one of
the two fails, the call returns false and its node stays in the list: the variable that is to be
freed is another one than the variable of the node. So its callback is called later all the same.
In runs without such failures every call has its callback called once, if it returned true, and
never, if it returned false.
-/
namespace BmCore.Middleware
open Library

/-- `bm_ms_to_ticks` and `bm_ticks_to_ms` -/
structure Ticks where
  msToTicks : UInt32 → UInt32
  ticksToMs : UInt32 → UInt32

/-- The ticks of the POSIX port. -/
def posixTicks : Ticks := ⟨id, id⟩

/-- `BmServiceRequestNode`. Its address is told by the number of the call that has allocated it. -/
structure BmServiceRequestNode where
  call : Nat
  service : ServiceName
  replyCb : Option Nat
  timeoutMs : UInt32
  requestStartMs : UInt32
  id : UInt32
  deriving DecidableEq

/-- `CTX` -/
structure BmServiceRequestContext where
  serviceRequestList : List BmServiceRequestNode
  requestCount : UInt32
  deriving DecidableEq

/-- `BmServiceReplyDataHeader`, with what is behind it. -/
structure BmServiceReplyDataHeader where
  targetNodeId : UInt64
  id : UInt32
  dataSize : UInt32
  data : List UInt8

def BmServiceReplyDataHeader.ofBytes (b : List UInt8) : BmServiceReplyDataHeader where
  targetNodeId := .ofNat (leNat (chars 8 b))
  id := .ofNat (leNat (chars 4 (b.drop 8)))
  dataSize := .ofNat (leNat (chars 4 (b.drop 12)))
  data := b.drop 16

/-- The arguments of `bm_service_request`. -/
structure RequestArgs where
  service : ServiceName
  data : List UInt8
  replyCb : Option Nat
  timeoutS : UInt32

/-- What may fail until the node is linked: the allocations of the node and of its name, and the
lock. -/
structure RequestFaults where
  node : Bool
  service : Bool
  lock : Bool

/-- `time_remaining_ms` at a tick count. -/
def timeRemainingMs (ticks : Ticks) (startTimeMs timeoutMs now : UInt32) : UInt32 :=
  ticks.ticksToMs (timeRemaining (ticks.msToTicks startTimeMs) now (ticks.msToTicks timeoutMs))

section Functions
variable (ticks : Ticks)

/-- `_create_node` -/
def createNode (faults : RequestFaults) (ctx : BmServiceRequestContext) (call : Nat)
    (args : RequestArgs) (now : UInt32) :
    BmServiceRequestContext × Option BmServiceRequestNode :=
  if !faults.node then (ctx, none)
  else if !faults.service then (ctx, none)
  else
    ({ ctx with requestCount := ctx.requestCount + 1 },
      some ⟨call, args.service, args.replyCb, args.timeoutS * 1000, ticks.ticksToMs now,
        ctx.requestCount⟩)

/-- `bm_service_request` up to the link of its node, `_request_list_add_request`. -/
def linkRequest (faults : RequestFaults) (ctx : BmServiceRequestContext) (call : Nat)
    (args : RequestArgs) (now : UInt32) :
    BmServiceRequestContext × Option BmServiceRequestNode :=
  if args.data.length > maxBmServiceDataSize then (ctx, none)
  else match createNode ticks faults ctx call args now with
    | (ctx, none) => (ctx, none)
    | (ctx, some node) =>
      if !faults.lock then (ctx, none)
      else ({ ctx with serviceRequestList := ctx.serviceRequestList ++ [node] }, some node)

/-- `_request_list_remove_request` -/
def requestListRemoveRequest (list : List BmServiceRequestNode) (node : BmServiceRequestNode) :
    List BmServiceRequestNode :=
  list.eraseP (·.call == node.call)

/-- `_service_request_list_get_node_by_id` -/
def getNodeById (list : List BmServiceRequestNode) (id : UInt32) : Option BmServiceRequestNode :=
  list.find? (·.id == id)

/-- `_service_request_cb` on the node `self`: the node whose callback is called, if it has one. -/
def serviceRequestCb (self : UInt64) (lock : Bool) (list : List BmServiceRequestNode)
    (header : BmServiceReplyDataHeader) :
    List BmServiceRequestNode × Option BmServiceRequestNode :=
  if header.targetNodeId ≠ self then (list, none)
  else if !lock then (list, none)
  else match getNodeById list header.id with
    | none => (list, none)
    | some node => (requestListRemoveRequest list node, some node)

/-- A pass of the loop of `_service_request_timer_expiry_cb` up to the next node that is expired,
with the number of times the clock has been read. -/
def nextExpired (clock : Nat → UInt32) : Nat → List BmServiceRequestNode →
    Option (BmServiceRequestNode × Nat)
  | _, [] => none
  | k, node :: list =>
    if timeRemainingMs ticks node.requestStartMs node.timeoutMs (clock k) = 0 then
      some (node, k + 1)
    else nextExpired clock (k + 1) list

/-- The loop starts again at the head behind each removal: the nodes that are left, and the nodes
that have been removed in their order. -/
def expire (clock : Nat → UInt32) : Nat → Nat → List BmServiceRequestNode →
    List BmServiceRequestNode × List BmServiceRequestNode
  | 0, _, list => (list, [])
  | fuel + 1, k, list => match nextExpired ticks clock k list with
    | none => (list, [])
    | some (node, k) =>
      let (rest, expired) := expire clock fuel k (requestListRemoveRequest list node)
      (rest, node :: expired)

/-- `_service_request_timer_expiry_cb`; no node is removed twice. -/
def serviceRequestTimerExpiryCb (lock : Bool) (clock : Nat → UInt32)
    (list : List BmServiceRequestNode) : List BmServiceRequestNode × List BmServiceRequestNode :=
  if !lock then (list, []) else expire ticks clock list.length 0 list

end Functions

section Lists
variable {list : List BmServiceRequestNode} {node : BmServiceRequestNode}

theorem mem_requestListRemoveRequest (h : (list.map (·.call)).Nodup) (hnode : node ∈ list)
    {n : BmServiceRequestNode} : n ∈ requestListRemoveRequest list node ↔ n ∈ list ∧ n ≠ node := by
  unfold requestListRemoveRequest
  induction list with
  | nil => simp
  | cons n' list ih =>
    have hrest : (list.map (·.call)).Nodup := by grind
    have hother : ∀ m ∈ list, m.call ≠ n'.call := by grind
    rw [List.eraseP_cons]
    grind

theorem nextExpired_mem {ticks : Ticks} {clock : Nat → UInt32} {k k' : Nat}
    (h : nextExpired ticks clock k list = some (node, k')) : node ∈ list := by
  induction list generalizing k with
  | nil => simp [nextExpired] at h
  | cons n list ih => grind [nextExpired]

/-- What expires leaves the list, and nothing else. -/
theorem expire_spec {ticks : Ticks} {clock : Nat → UInt32} {fuel k : Nat}
    (h : (list.map (·.call)).Nodup) :
    (expire ticks clock fuel k list).1.Sublist list ∧
      (expire ticks clock fuel k list).2.Nodup ∧
      ∀ n, n ∈ (expire ticks clock fuel k list).2 ↔
        n ∈ list ∧ n ∉ (expire ticks clock fuel k list).1 := by
  induction fuel generalizing k list with
  | zero => simp [expire]
  | succ fuel ih =>
    unfold expire
    cases hnext : nextExpired ticks clock k list with
    | none => simp
    | some result =>
      obtain ⟨node, k'⟩ := result
      have hnode := nextExpired_mem hnext
      have hsub : (requestListRemoveRequest list node).Sublist list := List.eraseP_sublist
      have hmem := fun n => mem_requestListRemoveRequest h hnode (n := n)
      obtain ⟨hrest, hnodup, hexpired⟩ := ih (k := k') (h.sublist (hsub.map _))
      dsimp only
      refine ⟨hrest.trans hsub, List.nodup_cons.mpr ⟨?_, hnodup⟩, fun n => ?_⟩
      · grind
      · have := hrest.subset
        grind

theorem serviceRequestTimerExpiryCb_spec (ticks : Ticks) (lock : Bool) (clock : Nat → UInt32)
    (h : (list.map (·.call)).Nodup) :
    let result := serviceRequestTimerExpiryCb ticks lock clock list
    result.1.Sublist list ∧ result.2.Nodup ∧ ∀ n, n ∈ result.2 ↔ n ∈ list ∧ n ∉ result.1 := by
  cases lock with
  | false => simp [serviceRequestTimerExpiryCb]
  | true => exact expire_spec h

/-- A reply is for the first node with its id. -/
theorem serviceRequestCb_spec (self : UInt64) (lock : Bool) (header : BmServiceReplyDataHeader)
    (h : (list.map (·.call)).Nodup) :
    let result := serviceRequestCb self lock list header
    result.1.Sublist list ∧ result.2.toList.Nodup ∧
      ∀ n, n ∈ result.2.toList ↔ n ∈ list ∧ n ∉ result.1 := by
  dsimp only [serviceRequestCb]
  split_ifs
  · simp
  · simp
  cases hget : getNodeById list header.id with
  | none => simp
  | some node =>
    have hnode : node ∈ list := List.mem_of_find?_eq_some hget
    refine ⟨List.eraseP_sublist, by simp, fun n => ?_⟩
    rw [mem_requestListRemoveRequest h hnode]
    grind

end Lists

/-! ## Runs -/

inductive RequestEvent where
  /-- A call of `bm_service_request` has returned. -/
  | returned (call : Nat) (result : Bool)
  /-- The callback of a call is called. -/
  | replied (call : Nat) (ack : Bool)
  deriving DecidableEq

/-- The requests of a node: the context, the number of calls so far, the calls between link and
return, all nodes that have ever been linked, and what has happened. -/
structure Requests where
  ctx : BmServiceRequestContext
  calls : Nat
  running : List Nat
  linked : List BmServiceRequestNode
  log : List RequestEvent
  deriving DecidableEq

inductive RequestOp where
  /-- A call runs up to the link of its node. -/
  | link (args : RequestArgs) (faults : RequestFaults) (now : UInt32)
  /-- A call subscribes to the topic of the reply, sends the request and returns. -/
  | finish (call : Nat) (subscribed sent : Bool)
  /-- A message arrives on the topic of a reply. -/
  | reply (lock : Bool) (header : BmServiceReplyDataHeader)
  | tick (lock : Bool) (clock : Nat → UInt32)

/-- The call of the callback of a node, which may be NULL. -/
def repliedTo (ack : Bool) (node : BmServiceRequestNode) : List RequestEvent :=
  if node.replyCb.isSome then [.replied node.call ack] else []

def requestStep (ticks : Ticks) (self : UInt64) (s : Requests) : RequestOp → Requests
  | .link args faults now =>
    match linkRequest ticks faults s.ctx s.calls args now with
    | (ctx, none) =>
      { s with ctx, calls := s.calls + 1, log := s.log ++ [.returned s.calls false] }
    | (ctx, some node) =>
      { s with ctx, calls := s.calls + 1, running := s.calls :: s.running,
               linked := s.linked ++ [node] }
  | .finish call subscribed sent =>
    if call ∉ s.running then s
    else
      -- the outer `node` is still NULL where a step has failed, so nothing is freed
      { s with running := s.running.erase call,
               log := s.log ++ [.returned call (subscribed && sent)] }
  | .reply lock header =>
    let (list, node) := serviceRequestCb self lock s.ctx.serviceRequestList header
    { s with ctx := { s.ctx with serviceRequestList := list },
             log := s.log ++ node.toList.flatMap (repliedTo true) }
  | .tick lock clock =>
    let (list, expired) := serviceRequestTimerExpiryCb ticks lock clock s.ctx.serviceRequestList
    { s with ctx := { s.ctx with serviceRequestList := list },
             log := s.log ++ expired.flatMap (repliedTo false) }

/-- No call fails behind the link of its node. -/
def NoLateFailure : RequestOp → Prop
  | .finish _ subscribed sent => subscribed = true ∧ sent = true
  | _ => True

def noRequests (requestCount : UInt32) : Requests := ⟨⟨[], requestCount⟩, 0, [], [], []⟩

/-- How often the callback of a call has been called. -/
def replies (log : List RequestEvent) (call : Nat) : Nat :=
  log.countP fun event => event = .replied call true ∨ event = .replied call false

/-- What the log says about the nodes. -/
structure Accounted (s : Requests) : Prop where
  list : s.ctx.serviceRequestList.Sublist s.linked
  nodup : (s.linked.map (·.call)).Nodup
  calls : ∀ n ∈ s.linked, n.call < s.calls
  running : ∀ call ∈ s.running, ∃ n ∈ s.linked, n.call = call
  replies : ∀ n ∈ s.linked, replies s.log n.call =
    if n.replyCb.isSome ∧ n ∉ s.ctx.serviceRequestList then 1 else 0
  unlinked : ∀ call, (∀ n ∈ s.linked, n.call ≠ call) → Middleware.replies s.log call = 0
  returned : ∀ call, .returned call true ∈ s.log → ∃ n ∈ s.linked, n.call = call
  refused : ∀ call, .returned call false ∈ s.log → call < s.calls ∧ ∀ n ∈ s.linked, n.call ≠ call

section Runs
variable {ticks : Ticks} {self : UInt64} {s : Requests}

/-- A call is refused without a change of the list, or its node is linked behind the others. -/
theorem linkRequest_cases (ticks : Ticks) (faults : RequestFaults) (ctx : BmServiceRequestContext)
    (call : Nat) (args : RequestArgs) (now : UInt32) :
    (∃ ctx', linkRequest ticks faults ctx call args now = (ctx', none) ∧
      ctx'.serviceRequestList = ctx.serviceRequestList ∧
      (ctx'.requestCount = ctx.requestCount ∨ ctx'.requestCount = ctx.requestCount + 1)) ∨
    ∃ node, node.call = call ∧ node.id = ctx.requestCount ∧ node.service = args.service ∧
      args.data.length ≤ maxBmServiceDataSize ∧ linkRequest ticks faults ctx call args now =
        (⟨ctx.serviceRequestList ++ [node], ctx.requestCount + 1⟩, some node) := by
  unfold linkRequest createNode
  split_ifs <;> simp
  omega

theorem linkRequest_replyCb {faults : RequestFaults} {ctx : BmServiceRequestContext} {call : Nat}
    {args : RequestArgs} {now : UInt32} {node : BmServiceRequestNode}
    (h : (linkRequest ticks faults ctx call args now).2 = some node) :
    node.replyCb = args.replyCb := by
  unfold linkRequest createNode at h
  grind

theorem linkRequest_isSome (ticks : Ticks) (faults : RequestFaults) (ctx : BmServiceRequestContext)
    (call : Nat) (args : RequestArgs) (now : UInt32) :
    (linkRequest ticks faults ctx call args now).2.isSome ↔
      args.data.length ≤ maxBmServiceDataSize ∧ faults.node ∧ faults.service ∧ faults.lock := by
  unfold linkRequest createNode
  grind

theorem replies_append (log log' : List RequestEvent) (call : Nat) :
    replies (log ++ log') call = replies log call + replies log' call :=
  List.countP_append

theorem replies_repliedTo (ack : Bool) (nodes : List BmServiceRequestNode) (call : Nat) :
    replies (nodes.flatMap (repliedTo ack)) call =
      nodes.countP fun n => n.replyCb.isSome ∧ n.call = call := by
  induction nodes with
  | nil => rfl
  | cons n nodes ih =>
    rw [List.flatMap_cons, replies_append, ih, List.countP_cons]
    cases hcb : n.replyCb with
    | none => simp [repliedTo, hcb, replies]
    | some cb =>
      cases ack <;> by_cases hcall : n.call = call <;>
        simp [repliedTo, hcb, replies, hcall, Nat.add_comm]

theorem returned_notMem_repliedTo (ack : Bool) (nodes : List BmServiceRequestNode) (call : Nat)
    (result : Bool) : RequestEvent.returned call result ∉ nodes.flatMap (repliedTo ack) := by
  simp only [List.mem_flatMap, not_exists, not_and, repliedTo]
  intro n _
  split <;> simp

/-- Nodes that leave the list have their callbacks called. -/
theorem Accounted.leave (h : Accounted s) {list gone : List BmServiceRequestNode} (ack : Bool)
    (hlist : list.Sublist s.ctx.serviceRequestList) (hnodup : gone.Nodup)
    (hgone : ∀ n, n ∈ gone ↔ n ∈ s.ctx.serviceRequestList ∧ n ∉ list) :
    Accounted { s with ctx := { s.ctx with serviceRequestList := list },
                       log := s.log ++ gone.flatMap (repliedTo ack) } := by
  have hinj : ∀ n ∈ s.linked, ∀ n' ∈ s.linked, n.call = n'.call → n = n' :=
    fun n hn n' hn' hcall => List.inj_on_of_nodup_map h.nodup hn hn' hcall
  have hlinked : ∀ n ∈ gone, n ∈ s.linked := fun n hn => h.list.subset ((hgone n).mp hn).1
  refine ⟨hlist.trans h.list, h.nodup, h.calls, h.running, fun n hn => ?_, fun call hcall => ?_,
    fun call hcall => ?_, fun call hcall => ?_⟩
  · have hcount : gone.countP (fun m => m.replyCb.isSome ∧ m.call = n.call) =
        if n.replyCb.isSome ∧ n ∈ gone then 1 else 0 := by
      have hcongr : ∀ m ∈ gone, decide (m.replyCb.isSome ∧ m.call = n.call) = true ↔
          (m == n && n.replyCb.isSome) = true := by
        intro m hm
        have := hinj m (hlinked m hm) n hn
        grind
      rw [List.countP_congr hcongr]
      cases hcb : n.replyCb.isSome with
      | false => simp
      | true =>
        have hone := hnodup.count (a := n)
        simpa [List.count] using hone
    rw [replies_append, replies_repliedTo, h.replies n hn, hcount]
    have := hgone n
    have := hlist.subset (a := n)
    grind
  · rw [replies_append, replies_repliedTo, h.unlinked call hcall, Nat.zero_add, List.countP_eq_zero]
    intro n hn
    have := hcall n (hlinked n hn)
    simp [this]
  · rcases List.mem_append.mp hcall with hcall | hcall
    · exact h.returned call hcall
    · exact absurd hcall (returned_notMem_repliedTo ack gone call true)
  · rcases List.mem_append.mp hcall with hcall | hcall
    · exact h.refused call hcall
    · exact absurd hcall (returned_notMem_repliedTo ack gone call false)

/-- A new node is linked, and nothing has been said about its call. -/
theorem Accounted.link (h : Accounted s) {node : BmServiceRequestNode} (hcall : node.call = s.calls)
    (requestCount : UInt32) :
    Accounted { s with ctx := ⟨s.ctx.serviceRequestList ++ [node], requestCount⟩,
                       calls := s.calls + 1, running := s.calls :: s.running,
                       linked := s.linked ++ [node] } := by
  have hnew : ∀ n ∈ s.linked, n.call ≠ node.call := fun n hn => by
    rw [hcall]
    exact Nat.ne_of_lt (h.calls n hn)
  have hnotMem : node ∉ s.ctx.serviceRequestList :=
    fun hmem => hnew node (h.list.subset hmem) rfl
  refine ⟨h.list.append_right [node], ?_, fun n hn => ?_, fun call hrun => ?_, fun n hn => ?_,
    fun call hother => ?_, fun call hret => ?_, fun call hret => ?_⟩
  · rw [List.map_append, List.nodup_append]
    exact ⟨h.nodup, by simp, by grind⟩
  · rcases List.mem_append.mp hn with hn | hn
    · exact Nat.lt_succ_of_lt (h.calls n hn)
    · rw [List.mem_singleton.mp hn, hcall]
      exact Nat.lt_succ_self _
  · rcases List.mem_cons.mp hrun with rfl | hrun
    · exact ⟨node, by simp, hcall⟩
    · obtain ⟨n, hn, hcall⟩ := h.running call hrun
      exact ⟨n, List.mem_append_left _ hn, hcall⟩
  · rcases List.mem_append.mp hn with hn | hn
    · have hne : n ≠ node := fun hne => hnew n hn (congrArg _ hne)
      rw [h.replies n hn]
      simp [hne]
    · obtain rfl := List.mem_singleton.mp hn
      rw [h.unlinked n.call hnew]
      simp
  · exact h.unlinked call fun n hn => hother n (List.mem_append_left _ hn)
  · obtain ⟨n, hn, hcall⟩ := h.returned call hret
    exact ⟨n, List.mem_append_left _ hn, hcall⟩
  · obtain ⟨hlt, hother⟩ := h.refused call hret
    refine ⟨Nat.lt_succ_of_lt hlt, fun n hn => ?_⟩
    rcases List.mem_append.mp hn with hn | hn
    · exact hother n hn
    · rw [List.mem_singleton.mp hn, hcall]
      exact (Nat.ne_of_lt hlt).symm

theorem replies_returned (log : List RequestEvent) (call call' : Nat) (result : Bool) :
    replies (log ++ [.returned call result]) call' = replies log call' := by
  rw [replies_append]
  simp [replies]

/-- A call that is refused has no node. -/
theorem Accounted.refuse (h : Accounted s) {ctx : BmServiceRequestContext}
    (hlist : ctx.serviceRequestList = s.ctx.serviceRequestList) :
    Accounted { s with ctx, calls := s.calls + 1, log := s.log ++ [.returned s.calls false] } := by
  refine ⟨hlist ▸ h.list, h.nodup, fun n hn => Nat.lt_succ_of_lt (h.calls n hn), h.running,
    fun n hn => ?_, fun call hother => ?_, fun call hret => ?_, fun call hret => ?_⟩
  · rw [replies_returned, hlist]
    exact h.replies n hn
  · rw [replies_returned]
    exact h.unlinked call hother
  · exact h.returned call (by simpa using hret)
  · rcases List.mem_append.mp hret with hret | hret
    · obtain ⟨hlt, hother⟩ := h.refused call hret
      exact ⟨Nat.lt_succ_of_lt hlt, hother⟩
    · obtain ⟨rfl, -⟩ := RequestEvent.returned.inj (List.mem_singleton.mp hret)
      exact ⟨Nat.lt_succ_self _, fun n hn => Nat.ne_of_lt (h.calls n hn)⟩

theorem Accounted.finish (h : Accounted s) {call : Nat} (hrun : call ∈ s.running) :
    Accounted { s with running := s.running.erase call,
                       log := s.log ++ [.returned call true] } := by
  refine ⟨h.list, h.nodup, h.calls, fun call' hcall' =>
    h.running call' (List.mem_of_mem_erase hcall'),
    fun n hn => ?_, fun call' hother => ?_, fun call' hret => ?_, fun call' hret => ?_⟩
  · rw [replies_returned]
    exact h.replies n hn
  · rw [replies_returned]
    exact h.unlinked call' hother
  · rcases List.mem_append.mp hret with hret | hret
    · exact h.returned call' hret
    · obtain ⟨rfl, -⟩ := RequestEvent.returned.inj (List.mem_singleton.mp hret)
      exact h.running call' hrun
  · exact h.refused call' (by simpa using hret)

theorem Accounted.step (h : Accounted s) {op : RequestOp} (hop : NoLateFailure op) :
    Accounted (requestStep ticks self s op) := by
  have hnodup : (s.ctx.serviceRequestList.map (·.call)).Nodup := h.nodup.sublist (h.list.map _)
  cases op with
  | link args faults now =>
    dsimp only [requestStep]
    rcases linkRequest_cases ticks faults s.ctx s.calls args now with
      ⟨ctx, heq, hlist, -⟩ | ⟨node, hcall, -, -, -, heq⟩
    · rw [heq]
      exact h.refuse hlist
    · rw [heq]
      exact h.link hcall _
  | finish call subscribed sent =>
    obtain ⟨rfl, rfl⟩ := hop
    dsimp only [requestStep]
    split
    · exact h
    · rename_i hrun
      exact h.finish (not_not.mp hrun)
  | reply lock header =>
    obtain ⟨hsub, hdone, hgone⟩ := serviceRequestCb_spec self lock header hnodup
    exact h.leave true hsub hdone hgone
  | tick lock clock =>
    obtain ⟨hsub, hdone, hgone⟩ := serviceRequestTimerExpiryCb_spec ticks lock clock hnodup
    exact h.leave false hsub hdone hgone

end Runs

/-- In every run in which no call fails behind the link of its node: the node of a call that
returned true is in the list and its callback has not been called, or it is not and the callback,
if it is not NULL, has been called once; no node of a call that returned false has ever been in the
list, and its callback has not been called. A call that is refused leaves the list as it was. -/
theorem request_lifecycle (ticks : Ticks) (self : UInt64) (requestCount : UInt32)
    (ops : List RequestOp) (hops : ∀ op ∈ ops, NoLateFailure op) :
    let s := ops.foldl (requestStep ticks self) (noRequests requestCount)
    (∀ call, .returned call true ∈ s.log → ∃ n ∈ s.linked, n.call = call ∧
      replies s.log call = if n.replyCb.isSome ∧ n ∉ s.ctx.serviceRequestList then 1 else 0) ∧
    (∀ call, .returned call false ∈ s.log → replies s.log call = 0 ∧
      ∀ n ∈ s.linked, n.call ≠ call) ∧
    s.ctx.serviceRequestList.Sublist s.linked ∧
    ∀ args faults now, let s' := requestStep ticks self s (.link args faults now)
      .returned s.calls false ∈ s'.log → s'.ctx.serviceRequestList = s.ctx.serviceRequestList := by
  have hempty : Accounted (noRequests requestCount) := by
    constructor <;> simp [noRequests, replies]
  have h : Accounted (ops.foldl (requestStep ticks self) (noRequests requestCount)) := by
    refine foldl_invariant (P := fun _ op => NoLateFailure op) (fun s op h hop => h.step hop)
      hempty ?_
    generalize noRequests requestCount = s
    induction ops generalizing s with
    | nil => trivial
    | cons op ops ih =>
      exact ⟨hops op (by simp), ih (fun op hop => hops op (List.mem_cons_of_mem _ hop)) _⟩
  generalize ops.foldl (requestStep ticks self) (noRequests requestCount) = s at h
  refine ⟨fun call hcall => ?_, fun call hcall => ?_, h.list, fun args faults now hlog => ?_⟩
  · obtain ⟨n, hn, rfl⟩ := h.returned call hcall
    exact ⟨n, hn, rfl, h.replies n hn⟩
  · obtain ⟨-, hother⟩ := h.refused call hcall
    exact ⟨h.unlinked call hother, hother⟩
  · dsimp only [requestStep] at hlog ⊢
    rcases linkRequest_cases ticks faults s.ctx s.calls args now with
      ⟨ctx, heq, hlist, -⟩ | ⟨node, hcall, -, -, -, heq⟩
    · rw [heq]
      exact hlist
    · rw [heq] at hlog
      exact absurd (h.refused s.calls hlog).1 (Nat.lt_irrefl _)

/-- Nobody answers the request of the first call; no node can be allocated for the second one. -/
def unanswered : List RequestOp :=
  [.link ⟨nameA, [], some 1, 1⟩ ⟨true, true, true⟩ 0, .finish 0 true true,
    .link ⟨nameA, [], some 2, 1⟩ ⟨false, true, true⟩ 0, .tick true fun _ => 1000]

/-- The first callback is called once, the second one never. -/
theorem unanswered_lifecycle :
    let s := unanswered.foldl (requestStep posixTicks 7) (noRequests 0)
    replies s.log 0 = 1 ∧ replies s.log 1 = 0 := by
  have h := request_lifecycle posixTicks 7 0 unanswered (by simp [unanswered, NoLateFailure])
  intro s
  have hlog : s.log = [.returned 0 true, .returned 1 false, .replied 0 false] := by decide +kernel
  have hlist : s.ctx.serviceRequestList = [] := by decide +kernel
  have hlinked : s.linked = [⟨0, nameA, some 1, 1000, 0, 0⟩] := by decide +kernel
  refine ⟨?_, (h.2.1 1 (by rw [hlog]; simp)).1⟩
  obtain ⟨n, hn, -, hreplies⟩ := h.1 0 (by rw [hlog]; simp)
  rw [hlinked, List.mem_singleton] at hn
  rw [hreplies, hlist, hn]
  rfl

/-- The topic of the reply cannot be subscribed. -/
def subscribeFails : List RequestOp :=
  [.link ⟨nameA, [], some 1, 1⟩ ⟨true, true, true⟩ 0, .finish 0 false false,
    .tick true fun _ => 1000]

/-- The call returns false, and its callback is called for a timeout. -/
theorem subscribeFails_lifecycle :
    ((subscribeFails.take 2).foldl (requestStep posixTicks 7) (noRequests 0)).log =
      [.returned 0 false] ∧
    ((subscribeFails.take 2).foldl (requestStep posixTicks 7)
      (noRequests 0)).ctx.serviceRequestList ≠ [] ∧
    (subscribeFails.foldl (requestStep posixTicks 7) (noRequests 0)).log =
      [.returned 0 false, .replied 0 false] := by
  decide +kernel

end BmCore.Middleware
