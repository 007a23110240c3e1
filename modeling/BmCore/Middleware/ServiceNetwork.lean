import BmCore.Middleware.ServiceRequest

/-!
# Services in a network

Nodes that register services and send each other requests. A message that has been published may be
given to every callback that is subscribed to it, any number of times. The requests of all nodes for
a service share one topic for the replies: a reply is known by the node it is for and by its id.

The callback for replies does not look at the topic of its message, and a topic matches a pattern
without a star that is a prefix of it. So the request for a service `x/rep` may be taken for a reply
of the service `x`. And the id of a request is read from its node when the node may have been freed.
In runs in which neither of these happens, every reply is given to the request it answers.
-/
namespace BmCore.Middleware
open Library

/-- What a handler has written; it is given `MAX_BM_SERVICE_DATA_SIZE` without the header. -/
structure ServiceReply where
  bytes : List UInt8
  length_le : bytes.length ≤ maxBmServiceDataSize - 16

/-- The payload of a reply. -/
def replyBytes (targetNodeId : UInt64) (id : UInt32) (reply : ServiceReply) : List UInt8 :=
  leBytes 8 targetNodeId.toNat ++ leBytes 4 id.toNat ++ leBytes 4 reply.bytes.length ++ reply.bytes

/-- A call of `bm_service_request` between the link of its node and its return. -/
structure RunningRequest where
  node : BmServiceRequestNode
  data : List UInt8

structure ServiceNode (Handler : Type) where
  requests : BmServiceRequestContext
  calls : Nat
  running : List RunningRequest
  services : BmServiceContext Handler

structure Message where
  sender : UInt64
  bytes : List UInt8

/-- A request that has been issued. -/
structure Issue where
  node : UInt64
  call : Nat
  id : UInt32
  service : ServiceName
  data : List UInt8

/-- What a handler has produced for the request of a node. -/
structure Product where
  requester : UInt64
  id : UInt32
  service : ServiceName
  data : List UInt8
  reply : ServiceReply

/-- A call of the callback of a request. -/
structure Completion where
  node : UInt64
  call : Nat
  ack : Bool
  id : UInt32
  service : ServiceName
  data : List UInt8
  deriving DecidableEq

/-- The nodes by their ids, and what has been published, issued, produced and completed so far. -/
structure Network (Handler : Type) where
  nodes : UInt64 → ServiceNode Handler
  messages : List Message
  issued : List Issue
  products : List Product
  completions : List Completion

/-- What may fail behind the link of a node: the allocation of the reply topic, the resource table,
the allocations of the request topic and of the request, and the transmission. -/
structure SendFaults where
  repStr : Bool
  resource : BmErr
  requestStr : Bool
  reqData : Bool
  sent : Bool

/-- The lock, what the handlers answer, and if the reply is published. -/
structure Handling (Handler : Type) where
  lock : Bool
  answer : Handler → List UInt8 → Option ServiceReply
  published : Bool

inductive NetworkOp (Handler : Type) where
  | register (node : UInt64) (faults : ServiceFaults) (service : ServiceName) (handler : Handler)
  | unregister (node : UInt64) (faults : ServiceFaults) (service : ServiceName)
  | link (node : UInt64) (args : RequestArgs) (faults : RequestFaults) (now : UInt32)
  /-- The rest of a call; a node that has been freed is read as `stale`. -/
  | finish (node : UInt64) (call : Nat) (faults : SendFaults) (stale : UInt32)
  /-- One of the callbacks that `bm_handle_msg` calls for a message. -/
  | deliver (node : UInt64) (message callback : Nat) (handling : Handling Handler)
  | tick (node : UInt64) (lock : Bool) (clock : Nat → UInt32)

section Steps
variable {Handler : Type}

/-- `bm_service_request` behind the link: the node, and the message that is sent. -/
def finishRequest (self : UInt64) (nd : ServiceNode Handler) (request : RunningRequest)
    (faults : SendFaults) (stale : UInt32) : ServiceNode Handler × List Message :=
  let service := request.node.service
  if !faults.repStr then (nd, [])
  else
    let (subs, err) := bmSubWl nd.services.subs (service.topic bmServiceRepStr)
      (some .serviceRequestCb) faults.resource
    let nd := { nd with services := { nd.services with subs } }
    if err ≠ .ok then (nd, [])
    else
      -- the node is read again without the lock
      let id := if request.node ∈ nd.requests.serviceRequestList then request.node.id else stale
      if !faults.requestStr then (nd, [])
      else if !faults.reqData then (nd, [])
      else match bmPubWl (service.topic bmServiceReqStr) (requestBytes id request.data) 0
          bmCommonPubSubVersion with
        | .error _ => (nd, [])
        | .ok bytes => (nd, if faults.sent then [⟨self, bytes⟩] else [])

/-- `_service_request_received_cb` with the answer of the handler and its message. -/
def answerRequest (self : UInt64) (nd : ServiceNode Handler) (msg : Delivery)
    (handling : Handling Handler) : List Product × List Message :=
  if !handling.lock then ([], [])
  else match serviceRequestReceivedCb nd.services.serviceList msg with
    | none => ([], [])
    | some dispatch =>
      match handling.answer dispatch.elem.serviceHandler dispatch.data with
      | none => ([], [])
      | some reply =>
        ([⟨dispatch.nodeId, dispatch.id, dispatch.elem.service, dispatch.data, reply⟩],
          if !handling.published then []
          else match bmPubWl (dispatch.elem.service.topic bmServiceRepStr)
              (replyBytes dispatch.nodeId dispatch.id reply) 0 bmCommonPubSubVersion with
            | .error _ => []
            | .ok bytes => [⟨self, bytes⟩])

/-- The call of the callback of a node, which may be NULL. -/
def complete (self : UInt64) (ack : Bool) (data : List UInt8) (node : BmServiceRequestNode) :
    List Completion :=
  if node.replyCb.isSome then [⟨self, node.call, ack, node.id, node.service, data⟩] else []

def Network.setNode (s : Network Handler) (node : UInt64) (nd : ServiceNode Handler) :
    Network Handler :=
  { s with nodes := Function.update s.nodes node nd }

def networkStep (ticks : Ticks) (s : Network Handler) : NetworkOp Handler → Network Handler
  | .register node faults service handler =>
    let nd := s.nodes node
    s.setNode node { nd with services := (bmServiceRegister faults nd.services service handler).1 }
  | .unregister node faults service =>
    let nd := s.nodes node
    s.setNode node { nd with services := (bmServiceUnregister faults nd.services service).1 }
  | .link node args faults now =>
    let nd := s.nodes node
    match linkRequest ticks faults nd.requests nd.calls args now with
    | (requests, none) => s.setNode node { nd with requests, calls := nd.calls + 1 }
    | (requests, some request) =>
      { s.setNode node { nd with
          requests, calls := nd.calls + 1, running := ⟨request, args.data⟩ :: nd.running } with
        issued := s.issued ++ [⟨node, request.call, request.id, request.service, args.data⟩] }
  | .finish node call faults stale =>
    let nd := s.nodes node
    match nd.running.find? (·.node.call == call) with
    | none => s
    | some request =>
      let nd := { nd with running := nd.running.eraseP (·.node.call == call) }
      let (nd, sent) := finishRequest node nd request faults stale
      { s.setNode node nd with messages := s.messages ++ sent }
  | .deliver node message callback handling =>
    let nd := s.nodes node
    match s.messages[message]? with
    | none => s
    | some m =>
      match (bmHandleMsg nd.services.subs m.sender m.bytes m.bytes.length)[callback]? with
      | none => s
      | some (.serviceRequestReceivedCb, msg) =>
        let (products, sent) := answerRequest node nd msg handling
        { s with products := s.products ++ products, messages := s.messages ++ sent }
      | some (.serviceRequestCb, msg) =>
        let header := BmServiceReplyDataHeader.ofBytes msg.data
        let (list, request) :=
          serviceRequestCb node handling.lock nd.requests.serviceRequestList header
        { s.setNode node
            { nd with requests := { nd.requests with serviceRequestList := list } } with
          completions := s.completions ++ request.toList.flatMap
            (complete node true (chars header.dataSize.toNat header.data)) }
      | some (.app _, _) => s
  | .tick node lock clock =>
    let nd := s.nodes node
    let (list, expired) :=
      serviceRequestTimerExpiryCb ticks lock clock nd.requests.serviceRequestList
    { s.setNode node
        { nd with requests := { nd.requests with serviceRequestList := list } } with
      completions := s.completions ++ expired.flatMap (complete node false []) }

/-! ## What is assumed of a run -/

/-- No node issues 2^32 requests, and topics are short. -/
def Bounded (s : Network Handler) : NetworkOp Handler → Prop
  | .link node args _ _ => (s.nodes node).calls + 1 < 2 ^ 32 ∧
    args.service.bytes.length + bmServiceReqStr.length < bmTopicMaxLen
  | _ => True

/-- A callback of services is called for a topic of requests, a callback of requests for a topic of
replies. A node is still in the list when its id is read. -/
def WellTimed (s : Network Handler) : NetworkOp Handler → Prop
  | .finish node call _ _ => ∀ request ∈ (s.nodes node).running.find? (·.node.call == call),
    request.node ∈ (s.nodes node).requests.serviceRequestList
  | .deliver node message callback _ => ∀ m ∈ s.messages[message]?,
    ∀ call ∈ (bmHandleMsg (s.nodes node).services.subs m.sender m.bytes m.bytes.length)[callback]?,
      (call.1 = .serviceRequestReceivedCb → bmServiceReqStr <:+ call.2.topic) ∧
      (call.1 = .serviceRequestCb → bmServiceRepStr <:+ call.2.topic)
  | _ => True

/-- A message that is given to `_service_request_cb` replies to another node, or to a request that
is not pending. -/
def RepliesElsewhere (s : Network Handler) (node : UInt64) (message callback : Nat) : Prop :=
  ∀ m ∈ s.messages[message]?, ∀ msg,
    (bmHandleMsg (s.nodes node).services.subs m.sender m.bytes m.bytes.length)[callback]? =
        some (.serviceRequestCb, msg) →
      (BmServiceReplyDataHeader.ofBytes msg.data).targetNodeId ≠ node ∨
        ∀ n ∈ (s.nodes node).requests.serviceRequestList,
          n.id ≠ (BmServiceReplyDataHeader.ofBytes msg.data).id

instance (s : Network Handler) : DecidablePred (Bounded s)
  | .register .. => .isTrue trivial
  | .unregister .. => .isTrue trivial
  | .link .. => inferInstanceAs (Decidable (_ ∧ _))
  | .finish .. => .isTrue trivial
  | .deliver .. => .isTrue trivial
  | .tick .. => .isTrue trivial

instance (s : Network Handler) : DecidablePred (WellTimed s)
  | .register .. => .isTrue trivial
  | .unregister .. => .isTrue trivial
  | .link .. => .isTrue trivial
  | .finish node call _ _ =>
    inferInstanceAs (Decidable (∀ request ∈ (s.nodes node).running.find? (·.node.call == call),
      request.node ∈ (s.nodes node).requests.serviceRequestList))
  | .deliver node message callback _ =>
    inferInstanceAs (Decidable (∀ m ∈ s.messages[message]?, ∀ call ∈ (bmHandleMsg
      (s.nodes node).services.subs m.sender m.bytes m.bytes.length)[callback]?,
        (call.1 = .serviceRequestReceivedCb → bmServiceReqStr <:+ call.2.topic) ∧
        (call.1 = .serviceRequestCb → bmServiceRepStr <:+ call.2.topic)))
  | .tick .. => .isTrue trivial

/-- Nothing has been requested yet. -/
structure Fresh (s : Network Handler) : Prop where
  nodes : ∀ node, (s.nodes node).requests = ⟨[], 0⟩ ∧ (s.nodes node).calls = 0 ∧
    (s.nodes node).running = []
  messages : s.messages = []
  issued : s.issued = []
  products : s.products = []
  completions : s.completions = []

/-! ## Frames -/

/-- The message of a request that was issued, or of a reply that was produced. -/
def Genuine (issued : List Issue) (products : List Product) (m : Message) : Prop :=
  (∃ i ∈ issued, m.sender = i.node ∧ bmPubWl (i.service.topic bmServiceReqStr)
    (requestBytes i.id i.data) 0 bmCommonPubSubVersion = .ok m.bytes) ∨
  ∃ p ∈ products, p.service.bytes.length + 4 < bmTopicMaxLen ∧
    bmPubWl (p.service.topic bmServiceRepStr) (replyBytes p.requester p.id p.reply) 0
      bmCommonPubSubVersion = .ok m.bytes

/-- The request was issued by the node, and what it is answered with was produced for it. -/
def Answered (issued : List Issue) (products : List Product) (c : Completion) : Prop :=
  ∃ i ∈ issued, i.node = c.node ∧ i.call = c.call ∧ i.id = c.id ∧ i.service = c.service ∧
    (c.ack = true → ∃ p ∈ products, p.requester = i.node ∧ p.id = i.id ∧ p.service = i.service ∧
      p.data = i.data ∧ p.reply.bytes = c.data)

theorem Genuine.mono {issued issued' : List Issue} {products products' : List Product} {m : Message}
    (h : Genuine issued products m) (hissued : issued ⊆ issued')
    (hproducts : products ⊆ products') :
    Genuine issued' products' m := by
  rcases h with ⟨i, hi, h⟩ | ⟨p, hp, h⟩
  · exact .inl ⟨i, hissued hi, h⟩
  · exact .inr ⟨p, hproducts hp, h⟩

theorem Answered.mono {issued issued' : List Issue} {products products' : List Product}
    {c : Completion} (h : Answered issued products c) (hissued : issued ⊆ issued')
    (hproducts : products ⊆ products') : Answered issued' products' c := by
  obtain ⟨i, hi, hnode, hcall, hid, hservice, hack⟩ := h
  refine ⟨i, hissued hi, hnode, hcall, hid, hservice, fun ht => ?_⟩
  obtain ⟨p, hp, hpi⟩ := hack ht
  exact ⟨p, hproducts hp, hpi⟩

/-- A topic that is short is passed on as it is. -/
theorem topic_eq {service : ServiceName} {suffix : List UInt8} (hsuffix : suffix.length = 4)
    (h : service.bytes.length + 4 < bmTopicMaxLen) :
    service.topic suffix = service.bytes ++ suffix := by
  have hlen : (service.bytes.length + suffix.length) % 2 ^ 16 =
      (service.bytes ++ suffix).length := by
    unfold bmTopicMaxLen at h
    rw [Nat.mod_eq_of_lt (by omega), List.length_append]
  rw [ServiceName.topic, hlen, List.take_length]

/-- What a genuine message of a request is received as. -/
theorem delivery_request {service : ServiceName} {id : UInt32} {data bytes : List UInt8}
    (hshort : service.bytes.length + 4 < bmTopicMaxLen) (hdata : data.length ≤ maxBmServiceDataSize)
    (h : bmPubWl (service.topic bmServiceReqStr) (requestBytes id data) 0 bmCommonPubSubVersion =
      .ok bytes) (sender : UInt64) :
    Delivery.ofBuf sender bytes bytes.length = ⟨sender, service.bytes ++ bmServiceReqStr,
      requestBytes id data, 0, bmCommonPubSubVersion⟩ := by
  rw [topic_eq rfl hshort] at h
  refine ofBuf_bmPubWl h ?_ sender
  unfold bmTopicMaxLen at hshort
  unfold maxBmServiceDataSize at hdata
  simp [requestBytes, bmServiceReqStr]
  omega

theorem delivery_reply {service : ServiceName} {target : UInt64} {id : UInt32}
    {reply : ServiceReply} {bytes : List UInt8} (hshort : service.bytes.length + 4 < bmTopicMaxLen)
    (h : bmPubWl (service.topic bmServiceRepStr) (replyBytes target id reply) 0
      bmCommonPubSubVersion = .ok bytes) (sender : UInt64) :
    Delivery.ofBuf sender bytes bytes.length = ⟨sender, service.bytes ++ bmServiceRepStr,
      replyBytes target id reply, 0, bmCommonPubSubVersion⟩ := by
  rw [topic_eq rfl hshort] at h
  refine ofBuf_bmPubWl h ?_ sender
  have hreply := reply.length_le
  unfold bmTopicMaxLen at hshort
  unfold maxBmServiceDataSize at hreply
  simp [replyBytes, bmServiceRepStr]
  omega

/-- The header of a reply is read back. -/
theorem ofBytes_replyBytes (target : UInt64) (id : UInt32) (reply : ServiceReply) :
    BmServiceReplyDataHeader.ofBytes (replyBytes target id reply) =
      ⟨target, id, .ofNat reply.bytes.length, reply.bytes⟩ := by
  have hreply := reply.length_le
  unfold maxBmServiceDataSize at hreply
  have htarget : chars 8 (replyBytes target id reply) = leBytes 8 target.toNat := by
    simp [chars, replyBytes]
  have hid : chars 4 ((replyBytes target id reply).drop 8) = leBytes 4 id.toNat := by
    rw [replyBytes, List.append_assoc, List.append_assoc, List.drop_left' (by simp)]
    simp [chars]
  have hsize : chars 4 ((replyBytes target id reply).drop 12) = leBytes 4 reply.bytes.length := by
    rw [replyBytes, List.append_assoc, List.drop_left' (by simp)]
    simp [chars]
  have hdata : (replyBytes target id reply).drop 16 = reply.bytes := by
    rw [replyBytes, List.drop_left' (by simp)]
  rw [BmServiceReplyDataHeader.ofBytes, htarget, hid, hsize, hdata, leNat_leBytes target.toNat_lt,
    leNat_leBytes id.toNat_lt, leNat_leBytes (by omega), UInt64.ofNat_toNat, UInt32.ofNat_toNat]

/-- The topics of requests and of replies end in different ways. -/
theorem not_both_suffixes {name topic : List UInt8} (h : topic = name ++ bmServiceReqStr) :
    ¬ bmServiceRepStr <:+ topic := by
  rintro ⟨name', rfl⟩
  have := List.append_inj_right' h rfl
  simp [bmServiceReqStr, bmServiceRepStr] at this

/-! ## The invariant -/

/-- What a node knows of its requests. -/
structure NodeRequests (issued : List Issue) (node : UInt64) (nd : ServiceNode Handler) : Prop where
  count : nd.requests.requestCount.toNat ≤ nd.calls
  ids : ∀ i ∈ issued, i.node = node →
    i.id.toNat < nd.requests.requestCount.toNat ∧ i.call < nd.calls
  nodup : (nd.requests.serviceRequestList.map (·.call)).Nodup
  list : ∀ n ∈ nd.requests.serviceRequestList, ∃ i ∈ issued, i.node = node ∧ i.call = n.call ∧
    i.id = n.id ∧ i.service = n.service
  running : ∀ r ∈ nd.running, ⟨node, r.node.call, r.node.id, r.node.service, r.data⟩ ∈ issued

structure Correlated (s : Network Handler) : Prop where
  nodes : ∀ node, NodeRequests s.issued node (s.nodes node)
  unique : ∀ i ∈ s.issued, ∀ j ∈ s.issued, i.node = j.node → i.id = j.id ∨ i.call = j.call → i = j
  short : ∀ i ∈ s.issued, i.service.bytes.length + 4 < bmTopicMaxLen ∧
    i.data.length ≤ maxBmServiceDataSize
  messages : ∀ m ∈ s.messages, Genuine s.issued s.products m
  products : ∀ p ∈ s.products, ∃ i ∈ s.issued, i.node = p.requester ∧ i.id = p.id ∧
    i.service = p.service ∧ i.data = p.data
  completions : ∀ c ∈ s.completions, Answered s.issued s.products c
  once : (s.completions.map fun c => (c.node, c.call)).Nodup
  pending : ∀ c ∈ s.completions,
    ∀ n ∈ (s.nodes c.node).requests.serviceRequestList, n.call ≠ c.call

section Invariant
variable {s : Network Handler} {node : UInt64}

theorem setNode_requests {P : UInt64 → ServiceNode Handler → Prop} {nd : ServiceNode Handler}
    (h : ∀ n, P n (s.nodes n)) (hnd : P node nd) (n : UInt64) :
    P n ((s.setNode node nd).nodes n) := by
  rcases eq_or_ne n node with rfl | hne
  · simpa [Network.setNode] using hnd
  · simpa [Network.setNode, hne] using h n

/-- A node that has the same requests. -/
theorem Correlated.setNode (h : Correlated s) {nd : ServiceNode Handler}
    (hnd : NodeRequests s.issued node nd)
    (hlist : nd.requests.serviceRequestList ⊆ (s.nodes node).requests.serviceRequestList) :
    Correlated (s.setNode node nd) := by
  refine ⟨setNode_requests h.nodes hnd, h.unique, h.short, h.messages, h.products, h.completions,
    h.once, fun c hc n hn => ?_⟩
  rcases eq_or_ne c.node node with heq | hne
  · refine h.pending c hc n ?_
    rw [heq] at hn ⊢
    exact hlist (by simpa [Network.setNode] using hn)
  · exact h.pending c hc n (by simpa [Network.setNode, hne] using hn)

/-- Genuine messages are published. -/
theorem Correlated.publish (h : Correlated s) {products : List Product} {sent : List Message}
    (hproducts : ∀ p ∈ products, ∃ i ∈ s.issued, i.node = p.requester ∧ i.id = p.id ∧
      i.service = p.service ∧ i.data = p.data)
    (hsent : ∀ m ∈ sent, Genuine s.issued (s.products ++ products) m) :
    Correlated { s with products := s.products ++ products, messages := s.messages ++ sent } := by
  have hmono : s.products ⊆ s.products ++ products := List.subset_append_left _ _
  refine ⟨h.nodes, h.unique, h.short, fun m hm => ?_, fun p hp => ?_, fun c hc => ?_, h.once,
    h.pending⟩
  · rcases List.mem_append.mp hm with hm | hm
    · exact (h.messages m hm).mono (List.Subset.refl _) hmono
    · exact hsent m hm
  · rcases List.mem_append.mp hp with hp | hp
    · exact h.products p hp
    · exact hproducts p hp
  · exact (h.completions c hc).mono (List.Subset.refl _) hmono

def completionOf (self : UInt64) (ack : Bool) (data : List UInt8) (n : BmServiceRequestNode) :
    Completion :=
  ⟨self, n.call, ack, n.id, n.service, data⟩

theorem flatMap_complete (self : UInt64) (ack : Bool) (data : List UInt8)
    (nodes : List BmServiceRequestNode) : nodes.flatMap (complete self ack data) =
      (nodes.filter (·.replyCb.isSome)).map (completionOf self ack data) := by
  induction nodes with
  | nil => rfl
  | cons n nodes ih =>
    cases hcb : n.replyCb <;> simp [complete, completionOf, hcb, ih]

/-- Requests leave the list of a node with their callbacks called. -/
theorem Correlated.leave (h : Correlated s) {list gone : List BmServiceRequestNode} (ack : Bool)
    (data : List UInt8) (hlist : list.Sublist (s.nodes node).requests.serviceRequestList)
    (hnodup : gone.Nodup)
    (hgone : ∀ n, n ∈ gone ↔ n ∈ (s.nodes node).requests.serviceRequestList ∧ n ∉ list)
    (hanswer : ack = true → ∀ n ∈ gone, ∃ p ∈ s.products, p.requester = node ∧ p.id = n.id ∧
      p.reply.bytes = data) :
    Correlated { s.setNode node
        { s.nodes node with
          requests := { (s.nodes node).requests with serviceRequestList := list } } with
      completions := s.completions ++ gone.flatMap (complete node ack data) } := by
  obtain ⟨hcount, hids, hcalls, hissue, hrunning⟩ := h.nodes node
  have hnd : NodeRequests s.issued node { s.nodes node with
      requests := { (s.nodes node).requests with serviceRequestList := list } } :=
    ⟨hcount, hids, hcalls.sublist (hlist.map _), fun n hn => hissue n (hlist.subset hn), hrunning⟩
  have hset := h.setNode hnd hlist.subset
  have hinj : ∀ n ∈ (s.nodes node).requests.serviceRequestList,
      ∀ n' ∈ (s.nodes node).requests.serviceRequestList, n.call = n'.call → n = n' :=
    fun n hn n' hn' hcall => List.inj_on_of_nodup_map hcalls hn hn' hcall
  rw [flatMap_complete]
  have hmem : ∀ c, c ∈ (gone.filter (·.replyCb.isSome)).map (completionOf node ack data) →
      ∃ n ∈ gone, c = completionOf node ack data n := by
    intro c hc
    obtain ⟨n, hn, rfl⟩ := List.mem_map.mp hc
    exact ⟨n, (List.mem_filter.mp hn).1, rfl⟩
  refine ⟨hset.nodes, hset.unique, hset.short, hset.messages, hset.products, fun c hc => ?_, ?_,
    fun c hc n hn => ?_⟩
  · rcases List.mem_append.mp hc with hc | hc
    · exact h.completions c hc
    · obtain ⟨n, hn, rfl⟩ := hmem c hc
      obtain ⟨i, hi, hnode, hcall, hid, hservice⟩ := hissue n ((hgone n).mp hn).1
      refine ⟨i, hi, hnode, hcall, hid, hservice, fun hack => ?_⟩
      obtain ⟨p, hp, hrequester, hpid, hbytes⟩ := hanswer hack n hn
      -- the product was made for the request of this node with this id
      obtain ⟨j, hj, hjnode, hjid, hjservice, hjdata⟩ := h.products p hp
      obtain rfl := h.unique i hi j hj (by rw [hnode, hjnode, hrequester])
        (.inl (by rw [hid, hjid, hpid]))
      exact ⟨p, hp, hjnode.symm, hjid.symm, hjservice.symm, hjdata.symm, hbytes⟩
  · rw [List.map_append, List.nodup_append]
    refine ⟨h.once, ?_, fun a ha b hb hab => ?_⟩
    · rw [List.map_map]
      refine (hnodup.filter _).map_on fun n hn n' hn' hcall => ?_
      refine hinj n ?_ n' ?_ (Prod.mk.inj hcall).2
      · exact ((hgone n).mp (List.mem_filter.mp hn).1).1
      · exact ((hgone n').mp (List.mem_filter.mp hn').1).1
    · obtain ⟨c, hc, rfl⟩ := List.mem_map.mp ha
      obtain ⟨c', hc', rfl⟩ := List.mem_map.mp hb
      obtain ⟨n, hn, rfl⟩ := hmem c' hc'
      obtain ⟨hnode, hcall⟩ := Prod.mk.inj hab
      exact h.pending c hc n (hnode ▸ ((hgone n).mp hn).1) hcall.symm
  · rcases List.mem_append.mp hc with hc | hc
    · exact hset.pending c hc n hn
    · obtain ⟨m, hm, rfl⟩ := hmem c hc
      have hn' : n ∈ list := by simpa [Network.setNode, completionOf] using hn
      intro hcall
      obtain ⟨hm', hnot⟩ := (hgone m).mp hm
      exact hnot (hinj n (hlist.subset hn') m hm' hcall ▸ hn')

/-- What is issued by a node so far differs from its next request. -/
theorem NodeRequests.next_fresh {issued : List Issue} {nd : ServiceNode Handler}
    (h : NodeRequests issued node nd) {i : Issue} (hi : i ∈ issued) (hnode : i.node = node) :
    i.id ≠ nd.requests.requestCount ∧ i.call ≠ nd.calls := by
  obtain ⟨hlt, hlt'⟩ := h.ids i hi hnode
  refine ⟨fun heq => ?_, Nat.ne_of_lt hlt'⟩
  rw [heq] at hlt
  exact Nat.lt_irrefl _ hlt

/-- Another node issues a request. -/
theorem NodeRequests.issue_other {issued : List Issue} {nd : ServiceNode Handler}
    (h : NodeRequests issued node nd) {issue : Issue} (hne : issue.node ≠ node) :
    NodeRequests (issued ++ [issue]) node nd := by
  refine ⟨h.count, fun i hi hnode => ?_, h.nodup, fun r hr => ?_,
    fun r hr => List.mem_append_left _ (h.running r hr)⟩
  · rcases List.mem_append.mp hi with hi | hi
    · exact h.ids i hi hnode
    · rw [List.mem_singleton.mp hi] at hnode
      exact absurd hnode hne
  · obtain ⟨i, hi, hri⟩ := h.list r hr
    exact ⟨i, List.mem_append_left _ hi, hri⟩

/-- The node itself issues a request, with the next id. -/
theorem NodeRequests.issue {issued : List Issue} {nd : ServiceNode Handler}
    (h : NodeRequests issued node nd) {request : BmServiceRequestNode} (data : List UInt8)
    (hcall : request.call = nd.calls) (hid : request.id = nd.requests.requestCount)
    (hbound : nd.calls + 1 < 2 ^ 32) :
    NodeRequests (issued ++ [⟨node, request.call, request.id, request.service, data⟩]) node
      { nd with
        requests := ⟨nd.requests.serviceRequestList ++ [request], nd.requests.requestCount + 1⟩
        calls := nd.calls + 1
        running := ⟨request, data⟩ :: nd.running } := by
  have hnext : (nd.requests.requestCount + 1).toNat = nd.requests.requestCount.toNat + 1 := by
    rw [UInt32.toNat_add, Nat.mod_eq_of_lt]
    · rfl
    · exact lt_of_le_of_lt (Nat.add_le_add_right h.count 1) hbound
  refine ⟨?_, fun i hi hnode => ?_, ?_, fun r hr => ?_, fun r hr => ?_⟩
  · exact hnext ▸ Nat.add_le_add_right h.count 1
  · dsimp only
    rw [hnext]
    rcases List.mem_append.mp hi with hi | hi
    · obtain ⟨hlt, hlt'⟩ := h.ids i hi hnode
      exact ⟨Nat.lt_succ_of_lt hlt, Nat.lt_succ_of_lt hlt'⟩
    · rw [List.mem_singleton.mp hi, hid, hcall]
      exact ⟨Nat.lt_succ_self _, Nat.lt_succ_self _⟩
  · rw [List.map_append, List.nodup_append]
    refine ⟨h.nodup, by simp, ?_⟩
    simp only [List.mem_map, List.map_cons, List.map_nil, List.mem_singleton]
    rintro _ ⟨r, hr, rfl⟩ _ rfl hsame
    obtain ⟨i, hi, hnode, hicall, -⟩ := h.list r hr
    exact (h.next_fresh hi hnode).2 ((hicall.trans hsame).trans hcall)
  · rcases List.mem_append.mp hr with hr | hr
    · obtain ⟨i, hi, hri⟩ := h.list r hr
      exact ⟨i, List.mem_append_left _ hi, hri⟩
    · rw [List.mem_singleton.mp hr]
      exact ⟨_, List.mem_append_right _ (List.mem_singleton_self _), rfl, rfl, rfl, rfl⟩
  · rcases List.mem_cons.mp hr with rfl | hr
    · exact List.mem_append_right _ (List.mem_singleton_self _)
    · exact List.mem_append_left _ (h.running r hr)

/-- A request is issued with the next id. -/
theorem Correlated.link (h : Correlated s) {request : BmServiceRequestNode} {data : List UInt8}
    (hcall : request.call = (s.nodes node).calls)
    (hid : request.id = (s.nodes node).requests.requestCount)
    (hbound : (s.nodes node).calls + 1 < 2 ^ 32)
    (hshort : request.service.bytes.length + 4 < bmTopicMaxLen)
    (hdata : data.length ≤ maxBmServiceDataSize) :
    Correlated { s.setNode node { s.nodes node with
        requests := ⟨(s.nodes node).requests.serviceRequestList ++ [request],
          (s.nodes node).requests.requestCount + 1⟩
        calls := (s.nodes node).calls + 1
        running := ⟨request, data⟩ :: (s.nodes node).running } with
      issued := s.issued ++ [⟨node, request.call, request.id, request.service, data⟩] } := by
  have hsub : s.issued ⊆ s.issued ++ [⟨node, request.call, request.id, request.service, data⟩] :=
    List.subset_append_left _ _
  have hold : ∀ i ∈ s.issued, i.node = node → ¬(i.id = request.id ∨ i.call = request.call) := by
    intro i hi hnode hsame
    obtain ⟨hne, hne'⟩ := (h.nodes node).next_fresh hi hnode
    rw [hid, hcall] at hsame
    exact hsame.elim hne hne'
  refine ⟨fun n => ?_, fun i hi j hj hnode hsame => ?_, fun i hi => ?_, fun m hm => ?_,
    fun p hp => ?_, fun c hc => ?_, h.once, fun c hc n hn => ?_⟩
  · rcases eq_or_ne n node with rfl | hne
    · simpa [Network.setNode] using (h.nodes n).issue data hcall hid hbound
    · simpa [Network.setNode, hne] using (h.nodes n).issue_other hne.symm
  · rcases List.mem_append.mp hi with hi | hi <;> rcases List.mem_append.mp hj with hj | hj
    · exact h.unique i hi j hj hnode hsame
    · obtain rfl := List.mem_singleton.mp hj
      exact absurd hsame (hold i hi hnode)
    · obtain rfl := List.mem_singleton.mp hi
      exact absurd (hsame.imp Eq.symm Eq.symm) (hold j hj hnode.symm)
    · rw [List.mem_singleton.mp hi, List.mem_singleton.mp hj]
  · rcases List.mem_append.mp hi with hi | hi
    · exact h.short i hi
    · rw [List.mem_singleton.mp hi]
      exact ⟨hshort, hdata⟩
  · exact (h.messages m hm).mono hsub (List.Subset.refl _)
  · obtain ⟨i, hi, hip⟩ := h.products p hp
    exact ⟨i, hsub hi, hip⟩
  · exact (h.completions c hc).mono hsub (List.Subset.refl _)
  · obtain ⟨i, hi, hnode, hicall, -⟩ := h.completions c hc
    rcases eq_or_ne c.node node with heq | hne
    · simp only [heq, Network.setNode, Function.update_self, List.mem_append,
        List.mem_singleton] at hn
      rcases hn with hn | rfl
      · exact h.pending c hc n (heq ▸ hn)
      · exact fun hsame => hold i hi (hnode.trans heq) (.inr (hicall.trans hsame.symm))
    · exact h.pending c hc n (by simpa [Network.setNode, hne] using hn)

/-- The rest of a call changes the subscriptions, and sends the request with the id of its node. -/
theorem finishRequest_spec (self : UInt64) (nd : ServiceNode Handler) (request : RunningRequest)
    (faults : SendFaults) (stale : UInt32)
    (hlinked : request.node ∈ nd.requests.serviceRequestList) :
    (∃ services, (finishRequest self nd request faults stale).1 = { nd with services }) ∧
    ∀ m ∈ (finishRequest self nd request faults stale).2, m.sender = self ∧
      bmPubWl (request.node.service.topic bmServiceReqStr)
      (requestBytes request.node.id request.data)
        0 bmCommonPubSubVersion = .ok m.bytes := by
  unfold finishRequest
  split
  · exact ⟨⟨nd.services, rfl⟩, by simp⟩
  dsimp only
  split
  · exact ⟨⟨_, rfl⟩, by simp⟩
  split
  · exact ⟨⟨_, rfl⟩, by simp⟩
  split
  · exact ⟨⟨_, rfl⟩, by simp⟩
  split
  · exact ⟨⟨_, rfl⟩, by simp⟩
  · rename_i bytes hbytes
    refine ⟨⟨_, rfl⟩, fun m hm => ?_⟩
    dsimp only at hm
    split at hm
    · rw [List.mem_singleton.mp hm]
      exact ⟨rfl, hbytes⟩
    · simp at hm

/-- A request is dispatched to a service of its name. -/
theorem dispatch_request {list : List (BmServiceListElem Handler)} {sender : UInt64}
    {service : ServiceName} {id : UInt32} {data : List UInt8}
    (hdata : data.length ≤ maxBmServiceDataSize) {dispatch : Dispatch Handler}
    (h : serviceRequestReceivedCb list ⟨sender, service.bytes ++ bmServiceReqStr,
      requestBytes id data, 0, bmCommonPubSubVersion⟩ = some dispatch) :
    dispatch.elem.service = service ∧ dispatch.nodeId = sender ∧ dispatch.id = id ∧
      dispatch.data = data := by
  have hsize : data.length < 2 ^ 32 := by
    unfold maxBmServiceDataSize at hdata
    omega
  have hsize' : (UInt32.ofNat data.length).toNat = data.length := by
    rw [UInt32.toNat_ofNat', Nat.mod_eq_of_lt hsize]
  unfold serviceRequestReceivedCb at h
  dsimp only at h
  rw [ofBytes_requestBytes id hsize] at h
  split at h
  · simp at h
  · rename_i current hfind
    split_ifs at h with hlen htopic
    obtain rfl := Option.some.inj h
    have hbegins := (strncmpEq_iff_begins current.service.nulFree _).mp (by
      simpa using List.find?_some hfind)
    have hlength : current.service.bytes.length = service.bytes.length := by
      simp only [ne_eq, not_not, List.length_append, Nat.add_right_cancel_iff] at htopic
      exact htopic.symm
    have hname : current.service.bytes = service.bytes := by
      obtain ⟨rest, hrest⟩ := hbegins
      exact List.append_inj_left hrest hlength
    refine ⟨?_, rfl, rfl, ?_⟩
    · cases hcurrent : current.service
      cases service
      simp_all
    · simp [chars, hsize']

/-- The answer to a request is its product. -/
theorem answerRequest_spec (h : Correlated s) {i : Issue} (hi : i ∈ s.issued) (self : UInt64)
    (nd : ServiceNode Handler) (handling : Handling Handler) {msg : Delivery}
    (hmsg : msg = ⟨i.node, i.service.bytes ++ bmServiceReqStr, requestBytes i.id i.data, 0,
      bmCommonPubSubVersion⟩) :
    (∀ p ∈ (answerRequest self nd msg handling).1, ∃ i ∈ s.issued, i.node = p.requester ∧
      i.id = p.id ∧ i.service = p.service ∧ i.data = p.data) ∧
    ∀ m ∈ (answerRequest self nd msg handling).2,
      Genuine s.issued (s.products ++ (answerRequest self nd msg handling).1) m := by
  obtain ⟨hshort, hdata⟩ := h.short i hi
  unfold answerRequest
  split
  · simp
  cases hdispatch : serviceRequestReceivedCb nd.services.serviceList msg with
  | none => simp
  | some dispatch =>
    rw [hmsg] at hdispatch
    obtain ⟨hservice, hsender, hid, hdata'⟩ := dispatch_request hdata hdispatch
    dsimp only
    cases handling.answer dispatch.elem.serviceHandler dispatch.data with
    | none => simp
    | some reply =>
      refine ⟨fun p hp => ?_, fun m hm => .inr ?_⟩
      · rw [List.mem_singleton.mp hp]
        exact ⟨i, hi, hsender.symm, hid.symm, hservice.symm, hdata'.symm⟩
      · refine ⟨_, List.mem_append_right _ (List.mem_singleton_self _), ?_, ?_⟩
        · rw [hservice]
          exact hshort
        · dsimp only at hm ⊢
          split_ifs at hm
          · simp at hm
          · split at hm
            · simp at hm
            · rename_i bytes hbytes
              rw [List.mem_singleton.mp hm]
              exact hbytes

/-- An id that is given to no request is lost. -/
theorem requestCount_le {count count' : UInt32} {calls : Nat} (hcount : count.toNat ≤ calls)
    (hbound : calls + 1 < 2 ^ 32) (h : count' = count ∨ count' = count + 1) :
    count.toNat ≤ count'.toNat ∧ count'.toNat ≤ calls + 1 := by
  rcases h with rfl | rfl
  · omega
  · have hnext : (count + 1).toNat = count.toNat + 1 := by
      rw [UInt32.toNat_add, Nat.mod_eq_of_lt]
      · rfl
      · exact lt_of_le_of_lt (Nat.add_le_add_right hcount 1) hbound
    omega

theorem chars_reply (reply : ServiceReply) :
    chars (UInt32.ofNat reply.bytes.length).toNat reply.bytes = reply.bytes := by
  have hreply := reply.length_le
  unfold maxBmServiceDataSize at hreply
  have hsize : (UInt32.ofNat reply.bytes.length).toNat = reply.bytes.length := by
    rw [UInt32.toNat_ofNat', Nat.mod_eq_of_lt (by omega)]
  simp [chars, hsize]

/-- A reply is for this node and for the request with its id. -/
theorem serviceRequestCb_some {self : UInt64} {lock : Bool} {list : List BmServiceRequestNode}
    {header : BmServiceReplyDataHeader} {n : BmServiceRequestNode}
    (h : (serviceRequestCb self lock list header).2 = some n) :
    header.targetNodeId = self ∧ n.id = header.id := by
  unfold serviceRequestCb at h
  split_ifs at h with htarget hlock
  cases hget : getNodeById list header.id with
  | none => simp [hget] at h
  | some node =>
    rw [hget] at h
    obtain rfl := Option.some.inj h
    exact ⟨not_not.mp htarget, by simpa using List.find?_some hget⟩

/-- Every callback is given the message as it was received. -/
theorem bmHandleMsg_delivery {subs : List (BmSub ServiceCallback)} {sender : UInt64}
    {bytes : List UInt8} {size : Nat} {call : ServiceCallback × Delivery}
    (h : call ∈ bmHandleMsg subs sender bytes size) :
    call.2 = Delivery.ofBuf sender bytes size := by
  rw [bmHandleMsg_eq] at h
  obtain ⟨pair, -, rfl⟩ := List.mem_map.mp h
  rfl

theorem Correlated.step_link {ticks : Ticks} (h : Correlated s) {node : UInt64} {args : RequestArgs}
    {faults : RequestFaults} {now : UInt32} (hbounded : Bounded s (.link node args faults now)) :
    Correlated (networkStep ticks s (.link node args faults now : NetworkOp Handler)) := by
  obtain ⟨hcount, hids, hcalls, hissue, hrunning⟩ := h.nodes node
  dsimp only [networkStep]
  rcases linkRequest_cases ticks faults (s.nodes node).requests (s.nodes node).calls args now with
    ⟨requests, heq, hlist, hnext⟩ | ⟨request, hcall, hid, hservice, hdata, heq⟩
  · rw [heq]
    obtain ⟨hle, hle'⟩ := requestCount_le hcount hbounded.1 hnext
    refine h.setNode ⟨hle', fun i hi hnode => ?_, ?_, ?_, hrunning⟩
      (by rw [hlist]; exact List.Subset.refl _)
    · obtain ⟨hlt, hlt'⟩ := hids i hi hnode
      exact ⟨lt_of_lt_of_le hlt hle, Nat.lt_succ_of_lt hlt'⟩
    · rw [hlist]
      exact hcalls
    · rw [hlist]
      exact hissue
  · rw [heq]
    exact h.link hcall hid hbounded.1 (hservice ▸ hbounded.2) hdata

theorem Correlated.step_finish {ticks : Ticks} (h : Correlated s) {node : UInt64} {call : Nat}
    {faults : SendFaults} {stale : UInt32} (htimed : WellTimed s (.finish node call faults stale)) :
    Correlated (networkStep ticks s (.finish node call faults stale : NetworkOp Handler)) := by
  dsimp only [networkStep]
  cases hfind : (s.nodes node).running.find? (·.node.call == call) with
  | none => exact h
  | some request =>
    obtain ⟨hcount, hids, hcalls, hissue, hrunning⟩ := h.nodes node
    have hissued := hrunning request (List.mem_of_find?_eq_some hfind)
    obtain ⟨⟨services, hnd⟩, hsent⟩ := finishRequest_spec node { s.nodes node with
      running := (s.nodes node).running.eraseP (·.node.call == call) } request faults stale
      (htimed request hfind)
    dsimp only
    rw [hnd]
    have hset : Correlated (s.setNode node { s.nodes node with
        running := (s.nodes node).running.eraseP (·.node.call == call), services }) :=
      h.setNode ⟨hcount, hids, hcalls, hissue,
        fun r hr => hrunning r (List.mem_of_mem_eraseP hr)⟩ (List.Subset.refl _)
    have hnone : ∀ p ∈ ([] : List Product), ∃ i ∈ s.issued, i.node = p.requester ∧ i.id = p.id ∧
        i.service = p.service ∧ i.data = p.data := by
      simp
    have hpublish := hset.publish hnone fun m hm => .inl ⟨_, hissued, hsent m hm⟩
    rw [List.append_nil] at hpublish
    exact hpublish

theorem Correlated.step_deliver {ticks : Ticks} (h : Correlated s) {node : UInt64}
    {message callback : Nat} {handling : Handling Handler}
    (htimed : WellTimed s (.deliver node message callback handling)) :
    Correlated (networkStep ticks s (.deliver node message callback handling)) := by
  dsimp only [networkStep]
  cases hm : s.messages[message]? with
  | none => exact h
  | some m =>
    dsimp only
    cases hcall : (bmHandleMsg (s.nodes node).services.subs m.sender m.bytes
        m.bytes.length)[callback]? with
    | none => exact h
    | some called =>
      obtain ⟨called, msg⟩ := called
      obtain ⟨hreq, hrep⟩ := htimed m hm (called, msg) hcall
      have hmsg : msg = Delivery.ofBuf m.sender m.bytes m.bytes.length :=
        bmHandleMsg_delivery (List.mem_of_getElem? hcall)
      cases called with
      | serviceRequestReceivedCb =>
        -- a topic of requests is not the topic of a reply
        rcases h.messages m (List.mem_of_getElem? hm) with
          ⟨i, hi, hsender, hbytes⟩ | ⟨p, hp, hshort, hbytes⟩
        · obtain ⟨hshort, hdata⟩ := h.short i hi
          rw [delivery_request hshort hdata hbytes, hsender] at hmsg
          obtain ⟨hproducts, hsent⟩ := answerRequest_spec h hi node (s.nodes node) handling hmsg
          exact h.publish hproducts hsent
        · rw [delivery_reply hshort hbytes] at hmsg
          obtain ⟨name, hname⟩ := hreq rfl
          exact absurd ⟨p.service.bytes, by rw [hmsg]⟩ (not_both_suffixes hname.symm)
      | serviceRequestCb =>
        rcases h.messages m (List.mem_of_getElem? hm) with
          ⟨i, hi, hsender, hbytes⟩ | ⟨p, hp, hshort, hbytes⟩
        · obtain ⟨hshort, hdata⟩ := h.short i hi
          rw [delivery_request hshort hdata hbytes] at hmsg
          exact absurd (hrep rfl) (not_both_suffixes (by rw [hmsg]))
        · rw [delivery_reply hshort hbytes] at hmsg
          have hheader : BmServiceReplyDataHeader.ofBytes msg.data =
              ⟨p.requester, p.id, .ofNat p.reply.bytes.length, p.reply.bytes⟩ := by
            rw [hmsg]
            exact ofBytes_replyBytes p.requester p.id p.reply
          dsimp only
          rw [hheader, chars_reply]
          obtain ⟨hsub, hdone, hgone⟩ := serviceRequestCb_spec node handling.lock
            ⟨p.requester, p.id, .ofNat p.reply.bytes.length, p.reply.bytes⟩ (h.nodes node).nodup
          refine h.leave true p.reply.bytes hsub hdone hgone fun _ n hn => ?_
          obtain ⟨htarget, hid⟩ := serviceRequestCb_some (Option.mem_toList.mp hn)
          exact ⟨p, hp, htarget, hid.symm, rfl⟩
      | app id => exact h

theorem Correlated.step {ticks : Ticks} (h : Correlated s) {op : NetworkOp Handler}
    (hbounded : Bounded s op) (htimed : WellTimed s op) : Correlated (networkStep ticks s op) := by
  cases op with
  | register node faults service handler =>
    obtain ⟨hcount, hids, hcalls, hissue, hrunning⟩ := h.nodes node
    exact h.setNode ⟨hcount, hids, hcalls, hissue, hrunning⟩ (List.Subset.refl _)
  | unregister node faults service =>
    obtain ⟨hcount, hids, hcalls, hissue, hrunning⟩ := h.nodes node
    exact h.setNode ⟨hcount, hids, hcalls, hissue, hrunning⟩ (List.Subset.refl _)
  | link node args faults now => exact h.step_link hbounded
  | finish node call faults stale => exact h.step_finish htimed
  | deliver node message callback handling => exact h.step_deliver htimed
  | tick node lock clock =>
    obtain ⟨hsub, hdone, hgone⟩ := serviceRequestTimerExpiryCb_spec ticks lock clock
      (h.nodes node).nodup
    exact h.leave false [] hsub hdone hgone (by simp)

/-- A callback is called for a request that is in the list of its node. -/
theorem completions_pending {ticks : Ticks} (h : Correlated s) (op : NetworkOp Handler)
    {c : Completion} (hc : c ∈ (networkStep ticks s op).completions) (hnew : c ∉ s.completions) :
    ∃ n ∈ (s.nodes c.node).requests.serviceRequestList, n.call = c.call ∧ n.id = c.id ∧
      n.service = c.service := by
  have hleave : ∀ {node ack data gone}, c ∈ s.completions ++ List.flatMap (complete node ack data)
      gone → (∀ n ∈ gone, n ∈ (s.nodes node).requests.serviceRequestList) →
      ∃ n ∈ (s.nodes c.node).requests.serviceRequestList, n.call = c.call ∧ n.id = c.id ∧
        n.service = c.service := by
    intro node ack data gone hc hgone
    have hc := (List.mem_append.mp hc).resolve_left hnew
    rw [flatMap_complete] at hc
    obtain ⟨n, hn, rfl⟩ := List.mem_map.mp hc
    exact ⟨n, hgone n (List.mem_filter.mp hn).1, rfl, rfl, rfl⟩
  cases op with
  | register => exact absurd hc hnew
  | unregister => exact absurd hc hnew
  | link node args faults now =>
    dsimp only [networkStep] at hc
    split at hc <;> exact absurd hc hnew
  | finish node call faults stale =>
    dsimp only [networkStep] at hc
    split at hc <;> exact absurd hc hnew
  | deliver node message callback handling =>
    dsimp only [networkStep] at hc
    split at hc
    · exact absurd hc hnew
    split at hc
    · exact absurd hc hnew
    · exact absurd hc hnew
    · refine hleave hc fun n hn => ?_
      exact (((serviceRequestCb_spec node handling.lock _ (h.nodes node).nodup).2.2 n).mp hn).1
    · exact absurd hc hnew
  | tick node lock clock =>
    refine hleave hc fun n hn => ?_
    exact (((serviceRequestTimerExpiryCb_spec ticks lock clock (h.nodes node).nodup).2.2 n).mp hn).1

/-- A reply that is not for a pending request of the node calls nothing. -/
theorem deliver_elsewhere {ticks : Ticks} (hcorrelated : Correlated s) {node : UInt64}
    {message callback : Nat} (h : RepliesElsewhere s node message callback)
    (handling : Handling Handler) :
    (networkStep ticks s (.deliver node message callback handling)).completions =
      s.completions := by
  dsimp only [networkStep]
  cases hm : s.messages[message]? with
  | none => rfl
  | some m =>
    dsimp only
    cases hcall : (bmHandleMsg (s.nodes node).services.subs m.sender m.bytes
        m.bytes.length)[callback]? with
    | none => rfl
    | some called =>
      obtain ⟨called, msg⟩ := called
      cases called with
      | serviceRequestReceivedCb => rfl
      | app id => rfl
      | serviceRequestCb =>
        have hnone : (serviceRequestCb node handling.lock
            (s.nodes node).requests.serviceRequestList (.ofBytes msg.data)).2 = none := by
          by_contra hsome
          obtain ⟨n, hn⟩ := Option.ne_none_iff_exists'.mp hsome
          obtain ⟨htarget, hid⟩ := serviceRequestCb_some hn
          have hpending := (((serviceRequestCb_spec node handling.lock (.ofBytes msg.data)
            (hcorrelated.nodes node).nodup).2.2 n).mp (Option.mem_toList.mpr hn)).1
          rcases h m hm msg hcall with hforeign | hdone
          · exact hforeign htarget
          · exact hdone n hpending hid
        dsimp only
        rw [hnone, Option.toList_none, List.flatMap_nil, List.append_nil]

end Invariant

/-- In every run of every network in which no request is taken for a reply or a reply for a request,
and in which no call reads the id of a node that has been freed: every callback is for a request
that its node has issued with this id and that is pending, no request gets a second callback, and a
reply has the bytes that a handler of the service has produced for the data of the request. A reply
for another node, or for a request that is not pending, calls nothing. -/
theorem service_replies_correlated (ticks : Ticks) (s₀ : Network Handler) (hfresh : Fresh s₀)
    (ops : List (NetworkOp Handler))
    (hops : Along (networkStep ticks) (fun s op => Bounded s op ∧ WellTimed s op) s₀ ops) :
    let s := ops.foldl (networkStep ticks) s₀
    (∀ c ∈ s.completions, Answered s.issued s.products c) ∧
    (s.completions.map fun c => (c.node, c.call)).Nodup ∧
    (∀ i ∈ s.issued, ∀ j ∈ s.issued, i.node = j.node → i.id = j.id ∨ i.call = j.call → i = j) ∧
    (∀ op, ∀ c ∈ (networkStep ticks s op).completions, c ∉ s.completions →
      ∃ n ∈ (s.nodes c.node).requests.serviceRequestList, n.call = c.call ∧ n.id = c.id ∧
        n.service = c.service) ∧
    ∀ node message callback handling, RepliesElsewhere s node message callback →
      (networkStep ticks s (.deliver node message callback handling)).completions =
        s.completions := by
  have hinit : Correlated s₀ := by
    obtain ⟨hnodes, hmessages, hissued, hproducts, hcompletions⟩ := hfresh
    refine ⟨fun node => ?_, ?_, ?_, ?_, ?_, ?_, ?_, ?_⟩
    · obtain ⟨hrequests, hcalls, hrunning⟩ := hnodes node
      constructor <;> simp [hrequests, hrunning, hissued]
    all_goals simp [hmessages, hissued, hproducts, hcompletions]
  have h : Correlated (ops.foldl (networkStep ticks) s₀) :=
    foldl_invariant (fun s op h hop => h.step hop.1 hop.2) hinit hops
  exact ⟨h.completions, h.once, h.unique, fun op c hc hnew => completions_pending h op hc hnew,
    fun node message callback handling helsewhere => deliver_elsewhere h helsewhere handling⟩

/-- A network in which nothing has happened. -/
def emptyNetwork : Network Unit := ⟨fun _ => ⟨⟨[], 0⟩, 0, [], ⟨[], []⟩⟩, [], [], [], []⟩

theorem emptyNetwork_fresh : Fresh emptyNetwork :=
  ⟨fun _ => ⟨rfl, rfl, rfl⟩, rfl, rfl, rfl, rfl⟩

/-- Node 2 answers a request of node 1. -/
def answered : List (NetworkOp Unit) :=
  [.register 2 noFaults nameA (),
    .link 1 ⟨nameA, [5], some 1, 10⟩ ⟨true, true, true⟩ 0,
    .finish 1 0 ⟨true, .ok, true, true, true⟩ 0,
    .deliver 2 0 0 ⟨true, fun _ _ => some ⟨[9], by decide⟩, true⟩,
    .deliver 1 1 0 ⟨true, fun _ _ => none, true⟩]

/-- The reply of node 2 is what its handler has produced. -/
theorem answered_correlated :
    let s := answered.foldl (networkStep posixTicks) emptyNetwork
    ⟨1, 0, true, 0, nameA, [9]⟩ ∈ s.completions ∧
      Answered s.issued s.products ⟨1, 0, true, 0, nameA, [9]⟩ := by
  have hmem : (⟨1, 0, true, 0, nameA, [9]⟩ : Completion) ∈
      (answered.foldl (networkStep posixTicks) emptyNetwork).completions := by
    decide +kernel
  exact ⟨hmem, (service_replies_correlated posixTicks emptyNetwork emptyNetwork_fresh answered
    (by decide +kernel)).1 _ hmem⟩

/-- The services `x` and `x/rep`. -/
def nameX : ServiceName := ⟨[0x78], by decide⟩
def nameXRep : ServiceName := ⟨[0x78, 0x2F, 0x72, 0x65, 0x70], by decide⟩

/-- A node requests both of these services, which nobody has registered. Its id is that of the
second request with the size of its data in front. -/
def mistaken : List (NetworkOp Unit) :=
  [.link 0x0000000800000001 ⟨nameX, [], some 1, 10⟩ ⟨true, true, true⟩ 0,
    .finish 0x0000000800000001 0 ⟨true, .ok, true, true, true⟩ 0,
    .link 0x0000000800000001 ⟨nameXRep, [0, 0, 0, 0, 0, 0, 0, 0], some 2, 10⟩ ⟨true, true, true⟩ 0,
    .finish 0x0000000800000001 1 ⟨true, .ok, true, true, true⟩ 0,
    .deliver 0x0000000800000001 1 0 ⟨true, fun _ _ => none, true⟩]

/-- The second request is taken for a reply to the first one. -/
theorem mistaken_not_correlated :
    let s := mistaken.foldl (networkStep posixTicks) emptyNetwork
    Along (networkStep posixTicks) Bounded emptyNetwork mistaken ∧
    s.completions = [⟨0x0000000800000001, 0, true, 0, nameX, []⟩] ∧
    s.products.length = 0 ∧
    ¬ Answered s.issued s.products ⟨0x0000000800000001, 0, true, 0, nameX, []⟩ := by
  have hnone : (mistaken.foldl (networkStep posixTicks) emptyNetwork).products.length = 0 := by
    decide +kernel
  refine ⟨by decide +kernel, by decide +kernel, hnone, ?_⟩
  rintro ⟨i, -, -, -, -, -, hack⟩
  obtain ⟨p, hp, -⟩ := hack rfl
  rw [List.length_eq_zero_iff.mp hnone] at hp
  simp at hp

end Steps

end BmCore.Middleware
