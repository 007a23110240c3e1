import BmCore.Bcmp.Config
import BmCore.Library.Runs

/-!
# Requests and replies in a network

A network of nodes that send config requests and answer them. A packet that was sent may reach any
node, any number of times and in any order, under any addresses; the messages of the other modules
are sent at will, and requests expire at will. Each node handles one message at a time. An
allocation gives memory that is not in use.

A reply carries nothing of its request but the number, cut to 16 bits, and every node counts its
requests from 0. So a reply can meet a pending request that it is not for.
-/
namespace BmCore.Bcmp
open Library LL

variable {Site Callback : Type} [DecidableEq Site]

/-- What a node does not change: `node_id()` and its address. -/
structure Identity where
  nodeId : UInt64
  addr : List UInt8

/-- A sequenced request, as it was sent. -/
structure Sent (Site : Type) where
  site : Site
  type : UInt16
  seqNum : UInt32
  deriving DecidableEq

/-- The packet modules of the nodes, the packets that were sent and the history of requests. -/
structure Network (Site Callback : Type) where
  packet : Site → PacketInfo Processor Callback
  inFlight : List Packet
  sent : List (Sent Site)

/-- A step of one node. -/
inductive NetAction (Site Callback : Type) where
  | request (site : Site) (m : ConfigMessage) (target : UInt64) (body : List UInt8)
      (cb : Option Callback) (taken : Bool) (alloc : Option Nat) (now : UInt32)
  | other (site : Site) (dst : List UInt8) (type : UInt16) (payload : List UInt8)
  | deliver (site : Site) (k : Nat) (src dst : List UInt8) (takenFind takenTake : Bool)
      (answer : Option (List UInt8))
  | timer (site : Site) (taken : Bool) (now : BcmpRequestElement Callback → UInt32)

/-! ## Steps -/

section Steps
variable (node : Site → Identity)

/-- `bcmp_tx` of a message that is short enough. -/
def Network.transmit (net : Network Site Callback) (site : Site) (dst : List UInt8) (type : UInt16)
    (payload : List UInt8) (seqNum : UInt32) (cb : Option Callback) (taken : Bool)
    (alloc : Option Nat) (now : UInt32) : Option (Network Site Callback × BmErr) := do
  let (p, packet, err) ← serialize (net.packet site) taken alloc now ⟨(node site).addr, dst, []⟩
    payload type seqNum cb
  some ({ net with
    packet := Function.update net.packet site p
    inFlight := if err = .ok then net.inFlight ++ [packet] else net.inFlight }, err)

/-- The packet that a node receives from the network. -/
def receivedAs (packet : Packet) (src dst : List UInt8) : Packet := ⟨src, dst, packet.data⟩

/-- The size that `bcmp_thread` gives to `process_received_message`. -/
def payloadSize (packet : Packet) : Nat := packet.data.length - bcmpHeaderSize

/-- A step; without a result the node has followed a pointer to memory that is no longer in
use. -/
def Network.step (net : Network Site Callback) :
    NetAction Site Callback → Option (Network Site Callback)
  | .request site m target body cb taken alloc now =>
    let p := net.packet site
    if m.sequencedReply || !alloc.all fun a => (p.sequenceList.heap.lookup a).isNone then some net
    else do
      let (net, err) ← net.transmit node site multicastLlAddr m.type
        (configHeader target (node site).nodeId ++ body) 0 cb taken alloc now
      some { net with
        sent := if m.sequencedRequest && err == .ok then
          net.sent ++ [⟨site, m.type, p.messageCount⟩] else net.sent }
  | .other site dst type payload =>
    if (ConfigMessage.ofType type).isSome then some net
    else (net.transmit node site dst type payload 0 none false none 0).map Prod.fst
  | .deliver site k src dst takenFind takenTake answer =>
    match net.inFlight[k]? with
    | none => some net
    | some packet => do
      let (p, _, call) ← processReceivedMessage (net.packet site) takenFind takenTake
        (receivedAs packet src dst) (payloadSize packet)
      let net := { net with packet := Function.update net.packet site p }
      match call with
      | some (.process .config data) =>
        match bcmpProcessConfigMessage (node site).nodeId data answer with
        | .forward =>
          some { net with
            inFlight := net.inFlight ++ [forwardPacket p.checksum (node site).addr data] }
        | .handle (some (m, payload, seqNum)) =>
          (net.transmit node site multicastLlAddr m.type payload seqNum none false none 0).map
            Prod.fst
        | .handle none => some net
      | _ => some net
  | .timer site taken now => do
    let (p, _) ← sequenceListTimerCallback (net.packet site) taken now
    some { net with packet := Function.update net.packet site p }

/-- A step of a run that may have come to an end. -/
def netStep (net : Option (Network Site Callback)) (a : NetAction Site Callback) :
    Option (Network Site Callback) :=
  net.bind (·.step node a)

/-- Every node has run `bcmp_init`, and nothing has been sent. -/
structure Network.Initial (net : Network Site Callback) : Prop where
  inited : ∀ site, ∃ checksum nodes, nodes.Nodup ∧ nodes.length = registrations.length ∧
    bcmpInit (freshPacketInfo checksum) nodes = some (net.packet site)
  inFlight : net.inFlight = []
  sent : net.sent = []

/-! ## Correlation -/

/-- The request that waits for a number. -/
def PendingRequest (p : PacketInfo Processor Callback) (seqNum : UInt32)
    (request : BcmpRequestElement Callback) : Prop :=
  ∃ a item, p.sequenceList.getPtr seqNum = some (some a) ∧
    p.sequenceList.heap.lookup a = some item ∧ item.data = request

/-- A message is a sequenced reply. -/
def replyMessage (type : UInt16) : Bool :=
  (ConfigMessage.ofType type).any ConfigMessage.sequencedReply

/-- A received message is handed on as it should be: to a callback only if it answers the request
and is for this node, and a reply for another node to the handler that forwards it. -/
def Correlated (p : PacketInfo Processor Callback) (nodeId : UInt64) (takenFind takenTake : Bool)
    (data : BcmpProcessData) : Prop :=
  ∃ p' err call, dispatch p takenFind takenTake data = some (p', err, call) ∧
    (∀ cb payload, call = some (.reply cb payload) → ∃ request,
      PendingRequest p data.seqNum request ∧ request.cb = some cb ∧ payload = data.payload ∧
      answers request.type data.type ∧ targetNodeId data.payload = nodeId) ∧
    (replyMessage data.type = true → targetNodeId data.payload ≠ nodeId →
      p' = p ∧ call = some (.process .config data))

/-- Every message that this step receives is handed on as it should be. -/
def StepCorrelated (net : Option (Network Site Callback)) : NetAction Site Callback → Prop
  | .deliver site k src dst takenFind takenTake _ => ∀ n packet data, net = some n →
    n.inFlight[k]? = some packet →
    receive (n.packet site) (receivedAs packet src dst) (payloadSize packet) = .ok data →
    Correlated (n.packet site) (node site).nodeId takenFind takenTake data
  | _ => True

/-- A message can be the answer to a request: it is of the type that answers it, goes to the node
that sent it, and has its number cut to 16 bits. -/
def MayAnswer (request : Sent Site) (type : UInt16) (seqNum : UInt32) (payload : List UInt8) :
    Prop :=
  answers request.type type ∧ request.seqNum.toUInt16.toUInt32 = seqNum ∧
    (node request.site).nodeId = targetNodeId payload

instance (request : Sent Site) (type : UInt16) (seqNum : UInt32) (payload : List UInt8) :
    Decidable (MayAnswer node request type seqNum payload) := inferInstanceAs (Decidable (_ ∧ _))

/-- The request of a site that waits for a number. -/
def pendingAt (net : Network Site Callback) (site : Site) (seqNum : UInt32) :
    Option (Sent Site) := do
  let a ← ← (net.packet site).sequenceList.getPtr seqNum
  let item ← (net.packet site).sequenceList.heap.lookup a
  some ⟨site, item.data.type, item.data.seqNum⟩

/-- The condition on a step: when a reply reaches a node where a request is pending under its
number, no other request was sent in the network that the reply can be the answer to. -/
def unmistaken (net : Option (Network Site Callback)) : NetAction Site Callback → Bool
  | .deliver site k _ _ _ _ _ => net.all fun n => n.inFlight[k]?.all fun packet =>
    !replyMessage (headerType packet.data) ||
      (pendingAt n site (headerSeqNum packet.data)).all fun pending => n.sent.all fun request =>
        !MayAnswer node request (headerType packet.data) (headerSeqNum packet.data)
          (packet.data.drop bcmpHeaderSize) || request == pending
  | _ => true

end Steps

/-! ## What the operations of a node do -/

section Operations
variable {p p' : PacketInfo Processor Callback}

/-- A message is dispatched without touching the registered types, and at most one request is
removed. -/
theorem dispatch_cases (hreg : Registered p) {takenFind takenTake : Bool} {data : BcmpProcessData}
    {err : BmErr} {call : Option (Call Processor Callback)}
    (h : dispatch p takenFind takenTake data = some (p', err, call)) :
    p'.packetList = p.packetList ∧
      (p'.sequenceList = p.sequenceList ∨
        ∃ err, p.sequenceList.remove data.seqNum = some (p'.sequenceList, err)) ∧
      ∀ handler d, call = some (.process handler d) → d = data := by
  have hdeliver : ∀ (cfg : BcmpPacketCfg Processor) (cb : Option Callback) handler d,
      deliver cfg cb data = some (.process handler d) → d = data := by
    intro cfg cb handler d hcall
    cases cb with
    | some cb => simp [deliver] at hcall
    | none =>
      obtain ⟨-, -, -, rfl⟩ : ∃ x, cfg.process = some x ∧ x = handler ∧ data = d := by
        simpa [deliver] using hcall
      rfl
  unfold dispatch at h
  rw [hreg] at h
  cases hcfg : cfgOf data.type with
  | none =>
    obtain ⟨rfl, -, rfl⟩ : p = p' ∧ _ ∧ none = call := by simpa [hcfg] using h
    exact ⟨rfl, .inl rfl, by simp⟩
  | some cfg =>
    simp only [hcfg, Option.bind_eq_bind, Option.bind_some] at h
    split at h
    · simp only [Option.bind_eq_some_iff] at h
      obtain ⟨found, -, h⟩ := h
      cases found with
      | none =>
        obtain ⟨rfl, -, rfl⟩ : p = p' ∧ _ ∧ deliver cfg none data = call := by simpa using h
        exact ⟨rfl, .inl rfl, hdeliver cfg none⟩
      | some a =>
        simp only [Option.bind_eq_some_iff, Option.some.injEq, Prod.mk.injEq] at h
        obtain ⟨⟨q, cb⟩, htake, rfl, -, rfl⟩ := h
        unfold takeMessage at htake
        split at htake
        · simp only [Option.bind_eq_bind, Option.bind_eq_some_iff, Option.some.injEq,
            Prod.mk.injEq] at htake
          obtain ⟨item, -, ⟨ll, err⟩, hremove, rfl, rfl⟩ := htake
          exact ⟨rfl, .inr ⟨err, hremove⟩, hdeliver cfg _⟩
        · obtain ⟨rfl, rfl⟩ : p = q ∧ none = cb := by simpa using htake
          exact ⟨rfl, .inl rfl, hdeliver cfg none⟩
    · obtain ⟨rfl, -, rfl⟩ : p = p' ∧ _ ∧ deliver cfg none data = call := by simpa using h
      exact ⟨rfl, .inl rfl, hdeliver cfg none⟩

end Operations

/-! ## Where the messages in flight come from -/

section Invariant
variable (node : Site → Identity)

/-- A request in flight was sent as it is, and a reply can be the answer to a request that was
sent. -/
structure Traced (sent : List (Sent Site)) (type : UInt16) (seqNum : UInt32)
    (payload : List UInt8) : Prop where
  request : ∀ m, ConfigMessage.ofType type = some m → m.sequencedRequest = true →
    ∃ q ∈ sent, q.type = type ∧ q.seqNum = seqNum ∧ (node q.site).nodeId = sourceNodeId payload
  reply : replyMessage type = true → ∃ q ∈ sent, MayAnswer node q type seqNum payload

/-- A packet in flight has a header, and its message is traced. -/
def TracedPacket (sent : List (Sent Site)) (packet : Packet) : Prop :=
  bcmpHeaderSize ≤ packet.data.length ∧ Traced node sent (headerType packet.data)
    (headerSeqNum packet.data) (packet.data.drop bcmpHeaderSize)

/-- An element of the sequence list is a request of its node, under its number. -/
def RequestSent (sent : List (Sent Site)) (site : Site) (id : UInt32)
    (request : BcmpRequestElement Callback) : Prop :=
  id = request.seqNum ∧ ⟨site, request.type, request.seqNum⟩ ∈ sent

structure Network.Inv (net : Network Site Callback) : Prop where
  registered : ∀ site, Registered (net.packet site)
  pending : ∀ site, Holds (RequestSent net.sent site) (net.packet site).sequenceList
  traced : ∀ packet ∈ net.inFlight, TracedPacket node net.sent packet

end Invariant

section Invariance
variable {node : Site → Identity} {net net' : Network Site Callback}

omit [DecidableEq Site] in
theorem Traced.mono {sent sent' : List (Sent Site)} {type : UInt16} {seqNum : UInt32}
    {payload : List UInt8} (h : Traced node sent type seqNum payload) (hsub : sent ⊆ sent') :
    Traced node sent' type seqNum payload := by
  refine ⟨fun m hm hreq => ?_, fun hreply => ?_⟩
  · obtain ⟨q, hq, hrest⟩ := h.request m hm hreq
    exact ⟨q, hsub hq, hrest⟩
  · obtain ⟨q, hq, hmay⟩ := h.reply hreply
    exact ⟨q, hsub hq, hmay⟩

omit [DecidableEq Site] in
theorem tracedPacket_header {sent : List (Sent Site)} {packet : Packet} {type c : UInt16}
    {seqNum : UInt32} {payload : List UInt8} (hdata : packet.data = header type c seqNum ++ payload)
    (h : Traced node sent type seqNum payload) : TracedPacket node sent packet := by
  refine ⟨by simp [hdata], ?_⟩
  rw [hdata, headerType_header, headerSeqNum_header, List.drop_left' (header_length _ _ _)]
  exact h

omit [DecidableEq Site] in
theorem RequestSent.mono {sent sent' : List (Sent Site)} {site : Site} (hsub : sent ⊆ sent')
    (id : UInt32) (request : BcmpRequestElement Callback) (h : RequestSent sent site id request) :
    RequestSent sent' site id request :=
  ⟨h.1, hsub h.2⟩

/-- One node changes its packet module and sends some packets. -/
theorem Network.Inv.update (h : net.Inv node) {site : Site} {p : PacketInfo Processor Callback}
    (new : List Packet) {sent' : List (Sent Site)} (hsub : net.sent ⊆ sent')
    (hlist : p.packetList = (net.packet site).packetList)
    (hseq : Holds (RequestSent sent' site) p.sequenceList)
    (hnew : ∀ packet ∈ new, TracedPacket node sent' packet) :
    Network.Inv node ⟨Function.update net.packet site p, net.inFlight ++ new, sent'⟩ := by
  refine ⟨fun s => ?_, fun s => ?_, fun packet hpacket => ?_⟩
  · by_cases hs : s = site
    · subst hs
      simpa using (h.registered s).congr hlist
    · simpa [hs] using h.registered s
  · by_cases hs : s = site
    · subst hs
      simpa using hseq
    · simpa [hs] using (h.pending s).mono (RequestSent.mono hsub)
  · rcases List.mem_append.mp hpacket with hold | hin
    · obtain ⟨hlong, htraced⟩ := h.traced packet hold
      exact ⟨hlong, htraced.mono hsub⟩
    · exact hnew packet hin

/-- The step of a node that sends nothing. -/
theorem Network.Inv.update_packet (h : net.Inv node) {site : Site}
    {p : PacketInfo Processor Callback} (hlist : p.packetList = (net.packet site).packetList)
    (hseq : Holds (RequestSent net.sent site) p.sequenceList) :
    Network.Inv node { net with packet := Function.update net.packet site p } := by
  have hnone := h.update [] (List.Subset.refl _) hlist hseq (by simp)
  rwa [List.append_nil] at hnone

/-- A message is sent whose request, if it is one, and whose answer are in the new history. -/
theorem transmit_inv (h : net.Inv node) {site : Site} {dst payload : List UInt8} {type : UInt16}
    {seqNum now : UInt32} {cb : Option Callback} {taken : Bool} {alloc : Option Nat} {err : BmErr}
    (htransmit : net.transmit node site dst type payload seqNum cb taken alloc now =
      some (net', err))
    (halloc : ∀ a, alloc = some a → a ∉ (net.packet site).sequenceList.heap)
    (sent' : List (Sent Site)) (hsub : net.sent ⊆ sent')
    (hnew : err = .ok → ∀ cfg, cfgOf type = some cfg →
      (cfg.sequencedReply = false → cfg.sequencedRequest = true →
        ⟨site, type, (net.packet site).messageCount⟩ ∈ sent') ∧
      Traced node sent' type (serializeSeqNum (net.packet site) cfg seqNum) payload) :
    net'.sent = net.sent ∧ Network.Inv node { net' with sent := sent' } := by
  unfold Network.transmit at htransmit
  simp only [Option.bind_eq_bind, Option.bind_eq_some_iff, Option.some.injEq,
    Prod.mk.injEq] at htransmit
  obtain ⟨⟨p, packet, err'⟩, hser, rfl, rfl⟩ := htransmit
  refine ⟨rfl, ?_⟩
  have hold := (h.pending site).mono (RequestSent.mono hsub)
  rcases serialize_cases (h.registered site) hser with
    ⟨herr, rfl⟩ | ⟨cfg, c, rfl, hcfg, hseq, hpacket⟩
  · have hnone := h.update [] hsub rfl hold (by simp)
    simpa [herr] using hnone
  · obtain ⟨hsent, htraced⟩ := hnew rfl cfg hcfg
    have hdata := congrArg Packet.data hpacket
    obtain ⟨hlist, hsame | ⟨a, ha, hreply, hrequest, hadd⟩⟩ := serializeSequence_cases hseq
    · have hupdate := h.update [packet] hsub hlist (hsame ▸ hold)
        (by simpa using tracedPacket_header hdata htraced)
      simpa using hupdate
    · have hholds := hold.itemAdd (halloc a ha) ⟨rfl, hsent hreply hrequest⟩ hadd
      have hupdate := h.update [packet] hsub hlist hholds
        (by simpa using tracedPacket_header hdata htraced)
      simpa using hupdate

/-- The history after a request. -/
def requestHistory (net : Network Site Callback) (site : Site) (m : ConfigMessage) (err : BmErr) :
    List (Sent Site) :=
  if m.sequencedRequest && err == .ok then
    net.sent ++ [⟨site, m.type, (net.packet site).messageCount⟩]
  else net.sent

/-- A request is in the history when it is in flight. -/
theorem step_request_inv (h : net.Inv node) {site : Site} {m : ConfigMessage} {target : UInt64}
    {body : List UInt8} {cb : Option Callback} {taken : Bool} {alloc : Option Nat} {now : UInt32}
    (hstep : net.step node (.request site m target body cb taken alloc now) = some net') :
    net'.Inv node := by
  unfold Network.step at hstep
  dsimp only at hstep
  split at hstep
  · obtain rfl := Option.some.inj hstep
    exact h
  rename_i hguard
  simp only [Bool.or_eq_true, Bool.not_eq_true', not_or, Bool.not_eq_true, Bool.not_eq_false]
    at hguard
  simp only [Option.bind_eq_bind, Option.bind_eq_some_iff, Option.some.injEq] at hstep
  obtain ⟨⟨mid, err⟩, htransmit, rfl⟩ := hstep
  have halloc : ∀ a, alloc = some a → a ∉ (net.packet site).sequenceList.heap := by
    intro a ha
    simpa [ha, AList.lookup_eq_none] using hguard.2
  have hreply : replyMessage m.type = false := by
    have hnot := hguard.1
    cases m <;> first | rfl | exact absurd hnot (by simp [ConfigMessage.sequencedReply])
  have hcfg : cfgOf m.type = some m.cfg := by cases m <;> rfl
  have hof : ConfigMessage.ofType m.type = some m := by cases m <;> rfl
  have htraced : err = .ok → ∀ cfg, cfgOf m.type = some cfg →
      (cfg.sequencedReply = false → cfg.sequencedRequest = true →
        ⟨site, m.type, (net.packet site).messageCount⟩ ∈ requestHistory net site m err) ∧
      Traced node (requestHistory net site m err) m.type
        (serializeSeqNum (net.packet site) cfg 0)
        (configHeader target (node site).nodeId ++ body) := by
    intro herr cfg hcfg'
    obtain rfl : m.cfg = cfg := Option.some.inj (hcfg.symm.trans hcfg')
    refine ⟨fun _ hrequest => ?_, fun m' hm' hrequest => ?_, fun hr => ?_⟩
    · have hreq : m.sequencedRequest = true := hrequest
      simp [requestHistory, hreq, herr]
    · obtain rfl : m = m' := Option.some.inj (hof.symm.trans hm')
      refine ⟨⟨site, m.type, (net.packet site).messageCount⟩,
        by simp [requestHistory, hrequest, herr], rfl, ?_, ?_⟩
      · simp [serializeSeqNum, ConfigMessage.cfg, hguard.1, hrequest]
      · rw [sourceNodeId_configHeader]
    · exact absurd hr (by simp [hreply])
  have hsub : net.sent ⊆ requestHistory net site m err := by
    unfold requestHistory
    split <;> simp
  obtain ⟨hsent, hinv⟩ := transmit_inv h htransmit halloc _ hsub htraced
  rw [hsent]
  exact hinv

/-- The messages of the other modules are neither requests nor replies. -/
theorem step_other_inv (h : net.Inv node) {site : Site} {dst payload : List UInt8} {type : UInt16}
    (hstep : net.step node (.other site dst type payload) = some net') : net'.Inv node := by
  unfold Network.step at hstep
  dsimp only at hstep
  split at hstep
  · obtain rfl := Option.some.inj hstep
    exact h
  rename_i hnone
  simp only [Bool.not_eq_true, Option.isSome_eq_false_iff, Option.isNone_iff_eq_none] at hnone
  obtain ⟨⟨mid, err⟩, htransmit, rfl⟩ := Option.map_eq_some_iff.mp hstep
  have hplain : ∀ m, ConfigMessage.ofType type ≠ some m := by simp [hnone]
  have htraced : ∀ seqNum, Traced node net.sent type seqNum payload := fun seqNum =>
    ⟨fun m hm => absurd hm (hplain m), by simp [replyMessage, hnone]⟩
  obtain ⟨hsent, hinv⟩ := transmit_inv h htransmit (by simp) net.sent (List.Subset.refl _)
    (fun _ cfg hcfg => ⟨fun _ hrequest => by
      obtain ⟨m, hm, -⟩ := cfgOf_sequenced hcfg (.inr hrequest)
      exact absurd hm (hplain m), htraced _⟩)
  rwa [← hsent] at hinv

omit [DecidableEq Site] in
/-- The answer to a traced request is traced. -/
theorem configReply_traced {sent : List (Sent Site)} {data : BcmpProcessData}
    (h : Traced node sent data.type data.seqNum data.payload) {nodeId : UInt64}
    {answer : Option (List UInt8)} {m : ConfigMessage} {payload : List UInt8} {seqNum : UInt32}
    (hreply : configReply nodeId data answer = some (m, payload, seqNum)) :
    m.sequencedReply = true ∧ Traced node sent m.type seqNum payload := by
  unfold configReply at hreply
  simp only [Option.bind_eq_bind, Option.bind_eq_some_iff, Option.some.injEq,
    Prod.mk.injEq] at hreply
  obtain ⟨m₀, hm₀, r, hr, body, -, rfl, rfl, rfl⟩ := hreply
  have hrequest : m₀.sequencedRequest = true := by
    cases m₀ <;> first | rfl | exact absurd hr (by simp [ConfigMessage.reply])
  have hseq : r.sequencedReply = true ∧ r.sequencedRequest = false := by
    cases m₀ <;> simp only [ConfigMessage.reply, Option.some.injEq, reduceCtorEq] at hr <;>
      subst hr <;> exact ⟨rfl, rfl⟩
  have hof : ConfigMessage.ofType r.type = some r := by cases r <;> rfl
  refine ⟨hseq.1, fun m' hm' hreq => ?_, fun _ => ?_⟩
  · obtain rfl : r = m' := Option.some.inj (hof.symm.trans hm')
    exact absurd hreq (by simp [hseq.2])
  · obtain ⟨q, hq, htype, hnum, hsite⟩ := h.request m₀ hm₀ hrequest
    refine ⟨q, hq, ?_, by rw [hnum], by rw [targetNodeId_configHeader, hsite]⟩
    rw [answers, htype, hm₀]
    simp [hr]

theorem transmit_reply_inv (h : net.Inv node) {site : Site} {dst payload : List UInt8}
    {m : ConfigMessage} {seqNum : UInt32} (hsequenced : m.sequencedReply = true)
    (htraced : Traced node net.sent m.type seqNum payload) {err : BmErr}
    (htransmit : net.transmit node site dst m.type payload seqNum none false none 0 =
      some (net', err)) : net'.Inv node := by
  have hnew : ∀ cfg, cfgOf m.type = some cfg →
      (cfg.sequencedReply = false → cfg.sequencedRequest = true →
        ⟨site, m.type, (net.packet site).messageCount⟩ ∈ net.sent) ∧
      Traced node net.sent m.type (serializeSeqNum (net.packet site) cfg seqNum) payload := by
    intro cfg hcfg
    have hcfg' : cfgOf m.type = some m.cfg := by cases m <;> rfl
    obtain rfl : m.cfg = cfg := Option.some.inj (hcfg'.symm.trans hcfg)
    have hcfgReply : m.cfg.sequencedReply = true := hsequenced
    refine ⟨fun hnot => absurd hnot (by simp [hcfgReply]), ?_⟩
    rw [serializeSeqNum, if_pos hcfgReply]
    exact htraced
  obtain ⟨hsent, hinv⟩ := transmit_inv h htransmit (by simp) net.sent (List.Subset.refl _)
    fun _ => hnew
  rwa [← hsent] at hinv

omit [DecidableEq Site] in
theorem forwardPacket_traced {sent : List (Sent Site)} {data : BcmpProcessData}
    (h : Traced node sent data.type data.seqNum data.payload)
    (hheader : data.header.length = bcmpHeaderSize)
    (hwhole : data.payload.take data.size = data.payload) (checksum : Packet → Nat → UInt16)
    (addr : List UInt8) : TracedPacket node sent (forwardPacket checksum addr data) := by
  obtain ⟨htype, hnum, hpayload⟩ := forwardPacket_message checksum addr hheader
  refine ⟨by simp [forwardPacket, hheader], ?_⟩
  rw [htype, hnum, hpayload, hwhole]
  exact h

/-- What is forwarded is what was received, and an answer is for the request that was received. -/
theorem step_deliver_inv (h : net.Inv node) {site : Site} {k : Nat} {src dst : List UInt8}
    {takenFind takenTake : Bool} {answer : Option (List UInt8)}
    (hstep : net.step node (.deliver site k src dst takenFind takenTake answer) = some net') :
    net'.Inv node := by
  unfold Network.step at hstep
  dsimp only at hstep
  cases hk : net.inFlight[k]? with
  | none =>
    rw [hk] at hstep
    obtain rfl := Option.some.inj hstep
    exact h
  | some packet =>
    obtain ⟨hlong, htraced⟩ := h.traced packet (List.mem_of_getElem? hk)
    rw [hk] at hstep
    simp only [Option.bind_eq_bind, Option.bind_eq_some_iff] at hstep
    obtain ⟨⟨p, err, call⟩, hprocess, hstep⟩ := hstep
    unfold processReceivedMessage at hprocess
    cases hreceive : receive (net.packet site) (receivedAs packet src dst) (payloadSize packet) with
    | error e =>
      rw [hreceive] at hprocess
      obtain ⟨rfl, -, rfl⟩ : net.packet site = p ∧ _ ∧ none = call := by simpa using hprocess
      obtain rfl := Option.some.inj hstep
      exact h.update_packet rfl (h.pending site)
    | ok data =>
      rw [hreceive] at hprocess
      obtain ⟨htype, hnum, hpayload, hsize, hheader⟩ := receive_ok hreceive
      have hdata : Traced node net.sent data.type data.seqNum data.payload := by
        rw [htype, hnum, hpayload]
        exact htraced
      obtain ⟨hlist, hseq, hcall⟩ := dispatch_cases (h.registered site) hprocess
      have hholds : Holds (RequestSent net.sent site) p.sequenceList := by
        rcases hseq with hsame | ⟨e, hremove⟩
        · exact hsame ▸ h.pending site
        · exact (h.pending site).remove hremove
      have hmid := h.update_packet hlist hholds
      dsimp only at hstep
      split at hstep
      · rename_i d
        obtain rfl := hcall _ d rfl
        cases hhandle : bcmpProcessConfigMessage (node site).nodeId d answer with
        | forward =>
          rw [hhandle] at hstep
          obtain rfl := Option.some.inj hstep
          have hfull : d.header.length = bcmpHeaderSize := by
            rw [hheader]
            exact Nat.min_eq_left hlong
          have hwhole : d.payload.take d.size = d.payload := by
            rw [hsize, hpayload]
            exact List.take_of_length_le (by simp [payloadSize, receivedAs])
          refine h.update [_] (List.Subset.refl _) hlist hholds ?_
          intro fwd hfwd
          rw [List.mem_singleton.mp hfwd]
          exact forwardPacket_traced hdata hfull hwhole _ _
        | handle reply =>
          rw [hhandle] at hstep
          cases reply with
          | none =>
            obtain rfl := Option.some.inj hstep
            exact hmid
          | some r =>
            obtain ⟨m, payload, seqNum⟩ := r
            have hreply : configReply (node site).nodeId d answer = some (m, payload, seqNum) := by
              unfold bcmpProcessConfigMessage at hhandle
              split at hhandle
              · exact absurd hhandle (by simp)
              · exact Handling.handle.inj hhandle
            obtain ⟨hsequenced, hanswer⟩ := configReply_traced hdata hreply
            obtain ⟨⟨mid, err'⟩, htransmit, rfl⟩ := Option.map_eq_some_iff.mp hstep
            exact transmit_reply_inv hmid hsequenced hanswer htransmit
      · obtain rfl := Option.some.inj hstep
        exact hmid

/-- The timer removes requests. -/
theorem step_timer_inv (h : net.Inv node) {site : Site} {taken : Bool}
    {now : BcmpRequestElement Callback → UInt32}
    (hstep : net.step node (.timer site taken now) = some net') : net'.Inv node := by
  unfold Network.step at hstep
  simp only [Option.bind_eq_bind, Option.bind_eq_some_iff, Option.some.injEq] at hstep
  obtain ⟨⟨p, calls⟩, htimer, rfl⟩ := hstep
  unfold sequenceListTimerCallback at htimer
  split at htimer
  · simp only [Option.bind_eq_bind, Option.bind_eq_some_iff, Option.some.injEq,
      Prod.mk.injEq] at htimer
    obtain ⟨⟨ret, ll, made⟩, htraverse, rfl, -⟩ := htimer
    refine h.update_packet rfl (Holds.traverse ?_ (h.pending site) htraverse)
    intro ll s element ret' ll' s' hll hcb
    unfold timerTraverseCb at hcb
    split at hcb
    · simp only [Option.bind_eq_bind, Option.bind_eq_some_iff, Option.some.injEq,
        Prod.mk.injEq] at hcb
      obtain ⟨⟨ll₁, e⟩, hremove, -, rfl, -⟩ := hcb
      exact hll.remove hremove
    · obtain ⟨-, rfl, -⟩ : _ ∧ ll = ll' ∧ s = s' := by simpa using hcb
      exact hll
  · obtain ⟨rfl, -⟩ := Prod.mk.inj (Option.some.inj htimer)
    exact h.update_packet rfl (h.pending site)

theorem Network.Inv.step (h : net.Inv node) {a : NetAction Site Callback}
    (hstep : net.step node a = some net') : net'.Inv node := by
  cases a with
  | request => exact step_request_inv h hstep
  | other => exact step_other_inv h hstep
  | deliver => exact step_deliver_inv h hstep
  | timer => exact step_timer_inv h hstep

omit [DecidableEq Site] in
theorem Network.Initial.inv (h : net.Initial) : net.Inv node := by
  have hnode : ∀ site, Registered (net.packet site) ∧ (net.packet site).sequenceList = .empty := by
    intro site
    obtain ⟨checksum, nodes, hnodup, hlength, hinit⟩ := h.inited site
    have hpackets : (freshPacketInfo checksum : PacketInfo Processor Callback).packetList =
        .empty := rfl
    obtain ⟨p, hp, hseq, -, hreg⟩ := bcmpInit_registered hpackets hnodup hlength
    obtain rfl := Option.some.inj (hp.symm.trans hinit)
    exact ⟨hreg, hseq⟩
  refine ⟨fun site => (hnode site).1, fun site => ?_, by simp [h.inFlight]⟩
  rw [(hnode site).2]
  exact Holds.empty

/-! ## The callbacks -/

theorem replyMessage_cfg {type : UInt16} (h : replyMessage type = true) :
    ∃ m : ConfigMessage, cfgOf type = some m.cfg ∧ m.cfg.isReply = true := by
  unfold replyMessage at h
  rw [Option.any_eq_true] at h
  obtain ⟨m, hm, hreply⟩ := h
  refine ⟨m, cfgOf_config hm, ?_⟩
  cases m <;> first | rfl | exact absurd hreply (by simp [ConfigMessage.sequencedReply])

/-- A reply that meets a pending request is the answer to it. -/
theorem meets_pending (h : net.Inv node) {site : Site} {k : Nat} {packet : Packet}
    (hk : net.inFlight[k]? = some packet) {src dst : List UInt8} {takenFind takenTake : Bool}
    {answer : Option (List UInt8)}
    (hok : unmistaken node (some net) (.deliver site k src dst takenFind takenTake answer) = true)
    (hreply : replyMessage (headerType packet.data) = true) {a : Nat}
    {item : LLItem (BcmpRequestElement Callback)}
    (hptr : (net.packet site).sequenceList.getPtr (headerSeqNum packet.data) = some (some a))
    (hitem : (net.packet site).sequenceList.heap.lookup a = some item) :
    answers item.data.type (headerType packet.data) ∧
      targetNodeId (packet.data.drop bcmpHeaderSize) = (node site).nodeId := by
  have hpending : pendingAt net site (headerSeqNum packet.data) =
      some ⟨site, item.data.type, item.data.seqNum⟩ := by
    simp [pendingAt, hptr, hitem]
  obtain ⟨q, hq, hmay⟩ := (h.traced packet (List.mem_of_getElem? hk)).2.reply hreply
  have hall : ∀ request ∈ net.sent, MayAnswer node request (headerType packet.data)
      (headerSeqNum packet.data) (packet.data.drop bcmpHeaderSize) →
        request = ⟨site, item.data.type, item.data.seqNum⟩ := by
    intro request hrequest hmay
    simp only [unmistaken, Option.all_some, hk, hreply, hpending, Bool.not_true, Bool.false_or,
      List.all_eq_true] at hok
    simpa [hmay] using hok request hrequest
  obtain rfl := hall q hq hmay
  exact ⟨hmay.1, hmay.2.2.symm⟩

theorem correlated_of_unmistaken (h : net.Inv node) {site : Site} {k : Nat} {packet : Packet}
    (hk : net.inFlight[k]? = some packet) {src dst : List UInt8} {takenFind takenTake : Bool}
    {answer : Option (List UInt8)}
    (hok : unmistaken node (some net) (.deliver site k src dst takenFind takenTake answer) = true)
    {data : BcmpProcessData}
    (hreceive : receive (net.packet site) (receivedAs packet src dst) (payloadSize packet) =
      .ok data) :
    Correlated (net.packet site) (node site).nodeId takenFind takenTake data := by
  obtain ⟨htype, hnum, hpayload, -, -⟩ := receive_ok hreceive
  have hreg := h.registered site data.type
  unfold Correlated dispatch
  rw [hreg]
  by_cases hreply : replyMessage data.type = true
  · obtain ⟨m, hcfg, hisReply⟩ := replyMessage_cfg hreply
    have hprocess : deliver m.cfg none data = (some (.process .config data) :
        Option (Call Processor Callback)) := rfl
    simp only [hcfg, Option.bind_eq_bind, Option.bind_some, hisReply, if_true,
      sequenceListFindMessage]
    cases takenFind with
    | false => exact ⟨net.packet site, .ok, _, rfl, by simp [hprocess], fun _ _ => ⟨rfl, hprocess⟩⟩
    | true =>
      obtain ⟨found, hptr, hfound⟩ := (h.pending site).getPtr data.seqNum
      simp only [if_true, hptr, Option.bind_some]
      cases found with
      | none => exact ⟨net.packet site, .ok, _, rfl, by simp [hprocess], fun _ _ => ⟨rfl, hprocess⟩⟩
      | some a =>
        obtain ⟨item, hitem, -, -⟩ := hfound a rfl
        rw [hnum] at hptr
        rw [htype] at hreply
        obtain ⟨hanswers, htarget⟩ := meets_pending h hk hok hreply hptr hitem
        cases takenTake with
        | false =>
          exact ⟨net.packet site, .ok, _, rfl, by simp [hprocess], fun _ _ => ⟨rfl, hprocess⟩⟩
        | true =>
          obtain ⟨es, hwalk⟩ := (h.pending site).walk
          obtain ⟨ll, es', err, hremove, -⟩ := remove_walkable hwalk data.seqNum
          refine ⟨{ net.packet site with sequenceList := ll }, .ok, deliver m.cfg item.data.cb data,
            by simp [takeMessage, hitem, hremove], ?_, ?_⟩
          · intro cb payload hcall
            cases hcb : item.data.cb with
            | none => simp [hcb, hprocess] at hcall
            | some cb' =>
              obtain ⟨rfl, rfl⟩ : cb' = cb ∧ data.payload = payload := by
                simpa [hcb, deliver] using hcall
              refine ⟨item.data, ⟨a, item, hnum ▸ hptr, hitem, rfl⟩, hcb, rfl, htype ▸ hanswers, ?_⟩
              rw [hpayload]
              exact htarget
          · intro _ hother
            rw [hpayload] at hother
            exact absurd htarget hother
  · cases hcfg : cfgOf data.type with
    | none => exact ⟨net.packet site, .enodev, none, rfl, by simp, fun hr => absurd hr hreply⟩
    | some cfg =>
      have hnot : cfg.isReply = false := by
        by_contra hyes
        rw [Bool.not_eq_false, BcmpPacketCfg.isReply, Bool.and_eq_true] at hyes
        obtain ⟨m, hm, rfl⟩ := cfgOf_sequenced hcfg (.inl hyes.1)
        have hsequenced : m.sequencedReply = true := hyes.1
        exact hreply (by simpa [replyMessage, hm] using hsequenced)
      have hdeliver : ∀ cb payload, (deliver cfg none data : Option (Call Processor Callback)) ≠
          some (.reply cb payload) := by
        simp [deliver]
      refine ⟨net.packet site, .ok, deliver cfg none data, by simp [hnot], ?_, ?_⟩
      · intro cb payload hcall
        exact absurd hcall (hdeliver cb payload)
      · exact fun hr => absurd hr hreply

/-- The invariant along a run that may have come to an end. -/
def RunTraced (node : Site → Identity) (net : Option (Network Site Callback)) : Prop :=
  ∀ n, net = some n → n.Inv node

theorem RunTraced.step {run : Option (Network Site Callback)} (h : RunTraced node run)
    (a : NetAction Site Callback) : RunTraced node (netStep node run a) := by
  intro n hn
  obtain ⟨m, rfl, hm⟩ := Option.bind_eq_some_iff.mp hn
  exact (h m rfl).step hm

theorem stepCorrelated_of_unmistaken {run : Option (Network Site Callback)}
    (h : RunTraced node run) {a : NetAction Site Callback} (hok : unmistaken node run a = true) :
    StepCorrelated node run a := by
  cases a with
  | deliver site k src dst takenFind takenTake answer =>
    intro n packet data hn hk hreceive
    subst hn
    exact correlated_of_unmistaken (h n rfl) hk hok hreceive
  | request => trivial
  | other => trivial
  | timer => trivial

/-- In every run of a network in which no reply meets a pending request while another request was
sent that it can be the answer to, a callback is called only with the answer to its request, and
replies for other nodes are forwarded. -/
theorem replies_correlated (net : Network Site Callback) (hinit : net.Initial)
    (actions : List (NetAction Site Callback))
    (hok : Along (netStep node) (fun run a => unmistaken node run a = true) (some net) actions) :
    Along (netStep node) (StepCorrelated node) (some net) actions := by
  have hrun : RunTraced node (some net) := fun n hn => Option.some.inj hn ▸ hinit.inv
  clear hinit
  generalize some net = run at hrun hok
  induction actions generalizing run with
  | nil => trivial
  | cons a actions ih =>
    exact ⟨stepCorrelated_of_unmistaken hrun hok.1, ih _ (hrun.step a) hok.2⟩

end Invariance

/-! ## Three nodes in a row -/

section Row

def byteSum (packet : Packet) (size : Nat) : UInt16 :=
  .ofNat ((packet.src ++ packet.dst ++ packet.data.take size).map UInt8.toNat).sum

def rowNode (site : Fin 3) : Identity :=
  ⟨.ofNat (10 + site), [0xFE, 0x80, 0, 0, 0, 0, 0, 0, 0, 0, 0, 0, 0, 0, 0, .ofNat site]⟩

def row : Network (Fin 3) String where
  packet _ := (bcmpInit (freshPacketInfo byteSum) (List.range registrations.length)).getD
    (freshPacketInfo byteSum)
  inFlight := []
  sent := []

theorem row_initial : row.Initial := by
  refine ⟨fun site => ⟨byteSum, List.range registrations.length, List.nodup_range,
    List.length_range, ?_⟩, rfl, rfl⟩
  have hpackets : (freshPacketInfo byteSum : PacketInfo Processor String).packetList = .empty := rfl
  obtain ⟨p, hp, -⟩ := bcmpInit_registered hpackets (List.nodup_range (n := registrations.length))
    List.length_range
  simp [row, hp]

/-- Packet `k` at a node, as its neighbor `sender` has sent it. -/
def hop (site : Fin 3) (k : Nat) (sender : Fin 3) (answer : Option (List UInt8)) :
    NetAction (Fin 3) String :=
  .deliver site k (rowNode sender).addr multicastLlAddr true true answer

/-- Node 0 gets a value from node 2. -/
def getValue : List (NetAction (Fin 3) String) :=
  [.request 0 .get 12 [0] (some "first") true (some 100) 0, hop 1 0 0 none, hop 2 1 1 (some [7]),
    hop 1 2 2 none, hop 0 3 1 none]

theorem replies_correlated_getValue :
    Along (netStep rowNode) (StepCorrelated rowNode) (some row) getValue :=
  replies_correlated row row_initial getValue (by decide +kernel)

/-- The callback that a received message is handed to, with the node the message is for. -/
def calledWith (net : Network (Fin 3) String) (site sender : Fin 3) (k : Nat) :
    Option (Option String × UInt64) := do
  let packet ← net.inFlight[k]?
  let data ← (receive (net.packet site)
    (receivedAs packet (rowNode sender).addr multicastLlAddr) (payloadSize packet)).toOption
  let (_, _, call) ← dispatch (net.packet site) true true data
  match call with
  | some (.reply cb _) => some (some cb, targetNodeId data.payload)
  | _ => some (none, targetNodeId data.payload)

/-- Node 1 asks node 2 for its status while node 0 gets a value from it. Both requests have
number 0, and node 1 takes the value that node 2 sends to node 0 for its status. -/
def twoRequests : List (NetAction (Fin 3) String) :=
  [.request 1 .statusRequest 12 [0] (some "status") true (some 100) 0,
    .request 0 .get 12 [0] (some "first") true (some 100) 0, hop 1 1 0 none,
    hop 2 2 1 (some [7]), hop 1 3 2 none]

theorem twoRequests_mistaken : row.Initial ∧
    ((twoRequests.take 4).foldl (netStep rowNode) (some row)).bind (calledWith · 1 2 3) =
      some (some "status", 10) ∧
    ¬ Along (netStep rowNode) (StepCorrelated rowNode) (some row) twoRequests := by
  have hcalled : ((twoRequests.take 4).foldl (netStep rowNode) (some row)).bind
      (calledWith · 1 2 3) = some (some "status", 10) := by decide +kernel
  refine ⟨row_initial, hcalled, ?_⟩
  rintro ⟨-, -, -, -, hlast, -⟩
  obtain ⟨net, hnet, hcalled⟩ := Option.bind_eq_some_iff.mp hcalled
  unfold calledWith at hcalled
  simp only [Option.bind_eq_bind, Option.bind_eq_some_iff] at hcalled
  obtain ⟨packet, hpacket, data, hdata, ⟨p, err, call⟩, hdispatch, hcall⟩ := hcalled
  have hreceive : receive (net.packet 1) (receivedAs packet (rowNode 2).addr multicastLlAddr)
      (payloadSize packet) = .ok data := by
    cases hr : receive (net.packet 1) (receivedAs packet (rowNode 2).addr multicastLlAddr)
        (payloadSize packet) with
    | error e => simp [hr, Except.toOption] at hdata
    | ok d => simpa [hr, Except.toOption] using hdata
  obtain ⟨p', err', call', hdispatch', hcb, -⟩ := hlast net packet data hnet hpacket hreceive
  obtain ⟨-, -, heq⟩ : p' = p ∧ err' = err ∧ call' = call := by
    simpa using hdispatch'.symm.trans hdispatch
  rcases call with _ | ⟨handler, d⟩ | ⟨cb, payload⟩ | cb
  · simp at hcall
  · simp at hcall
  · obtain ⟨-, htarget⟩ : cb = "status" ∧ targetNodeId data.payload = 10 := by simpa using hcall
    obtain ⟨-, -, -, -, -, hmine⟩ := hcb _ _ heq
    exact absurd (htarget.symm.trans hmine) (by decide)
  · simp at hcall

end Row

end BmCore.Bcmp
