import BmCore.Network.Submit

/-!
# Applications of the middleware

`middleware.c` binds the UDP port of every application to one callback, `bm_middleware_rx`, which
queues what it is given for the middleware task; the task looks the application up once more and
calls it. The port goes through two registries on its way: `udp_list` of the IP stack is asked for
the destination port, and the applications are asked for the port that the stack passes on, which is
the port of the sender.
-/
namespace BmCore.Middleware
open Library BmCore.Network

/-! ## Registries -/

structure MiddlewareApplication (Cb : Type) where
  pcb : UInt16
  port : UInt16
  rxCb : Cb
  dest : BmIpAddr

/-- The one callback that is bound to UDP ports: `bm_middleware_rx`. -/
inductive UdpCb where
  | bmMiddlewareRx

structure NetQueueItem where
  buf : List UInt8
  nodeId : UInt64
  size : Nat
  port : UInt16

/-- The lists of the IP stack and of the middleware, and the queue of the middleware task. -/
structure Registry (Cb : Type) where
  udpList : List (UInt16 × UdpCb) := []
  applications : List (MiddlewareApplication Cb) := []
  netQueue : List NetQueueItem := []

def netQueueLen : Nat := 64

/-- A call of `rx_cb`. -/
structure RxCall (Cb : Type) where
  rxCb : Cb
  nodeId : UInt64
  buf : List UInt8
  size : Nat
  deriving DecidableEq

section Functions
variable {Cb : Type}

/-- `bm_udp_bind_port`, with memory for the pcb and the item or without. -/
def bmUdpBindPort (r : Registry Cb) (port : UInt16) (memory : Bool) :
    Registry Cb × Option UInt16 :=
  if memory then ({ r with udpList := r.udpList ++ [(port, .bmMiddlewareRx)] }, some port)
  else (r, none)

/-- A call of `bm_middleware_add_application` and the memory it finds. -/
structure AddApplication (Cb : Type) where
  port : UInt16
  dest : BmIpAddr
  rxCb : Cb
  bindMemory : Bool
  itemMemory : Bool

/-- `bm_middleware_add_application`. A port whose item does not fit stays bound. -/
def bmMiddlewareAddApplication (r : Registry Cb) (add : AddApplication Cb) : Registry Cb × BmErr :=
  match bmUdpBindPort r add.port add.bindMemory with
  | (r, none) => (r, .enomem)
  | (r, some pcb) =>
    if add.itemMemory then
      ({ r with applications := r.applications ++ [⟨pcb, add.port, add.rxCb, add.dest⟩] }, .ok)
    else (r, .enomem)

/-- `ll_get_item` on the applications -/
def Registry.application (r : Registry Cb) (port : UInt16) : Option (MiddlewareApplication Cb) :=
  r.applications.find? fun app => app.port == port

/-- `bm_middleware_rx` with a buffer -/
def bmMiddlewareRx (r : Registry Cb) (call : UdpCall) : Registry Cb × BmErr :=
  if r.netQueue.length < netQueueLen then
    ({ r with netQueue := r.netQueue ++ [⟨call.payload, call.nodeId, call.size, call.port⟩] }, .ok)
  else (r, .enomem)

/-- A round of `middleware_net_task`. -/
def netTaskRound (r : Registry Cb) (item : NetQueueItem) : Option (RxCall Cb) :=
  (r.application item.port).map fun app => ⟨app.rxCb, item.nodeId, item.buf, item.size⟩

/-- `middleware_net_task` until its queue is empty. -/
def middlewareNetTask (r : Registry Cb) : List (RxCall Cb) := r.netQueue.filterMap (netTaskRound r)

/-- `bm_l2_submit` with the callbacks that it makes. -/
def l2Submit (host : ByteOrder) (room : Room) (r : Registry Cb) (frame : List UInt8) (size : Nat) :
    Registry Cb :=
  match (bmL2Submit host r.udpList room frame size).call with
  | some (.bmMiddlewareRx, call) => (bmMiddlewareRx r call).1
  | none => r

/-- `max_payload_len_udp` -/
def maxPayloadLenUdp : Nat := 1500 - 40 - udpHdrLen

/-- `bm_middleware_net_tx`: the frame for `bm_l2_link_output`. -/
def bmMiddlewareNetTx (sender : ByteOrder) (ctx : LinuxCtx) (memory : Bool) (r : Registry Cb)
    (port : UInt16) (buf : Option (List UInt8)) (size : Nat) : Except BmErr (List UInt8) :=
  match r.application port with
  | none => .error .enodev
  | some app =>
    if buf.isSome ∧ size ≤ maxPayloadLenUdp then
      bmUdpTxPerform sender ctx memory (some app.pcb) buf size (some app.dest) app.port
    else .error .einval

end Functions

/-! ## Bound ports -/

/-- Calls of `bm_middleware_add_application` after a start. -/
def addRun {Cb : Type} (adds : List (AddApplication Cb)) : Registry Cb :=
  adds.foldl (fun r add => (bmMiddlewareAddApplication r add).1) {}

/-- Every application has its port bound. -/
def Bound {Cb : Type} (r : Registry Cb) : Prop :=
  ∀ app ∈ r.applications, app.pcb = app.port ∧ ∃ entry ∈ r.udpList, entry.1 = app.port

section Bound
variable {Cb : Type} {r : Registry Cb}

theorem Bound.add (h : Bound r) (add : AddApplication Cb) :
    Bound (bmMiddlewareAddApplication r add).1 := by
  unfold bmMiddlewareAddApplication bmUdpBindPort
  cases add.bindMemory with
  | false => exact h
  | true =>
    have hold : ∀ app ∈ r.applications, app.pcb = app.port ∧
        ∃ entry ∈ r.udpList ++ [(add.port, UdpCb.bmMiddlewareRx)], entry.1 = app.port := by
      intro app happ
      obtain ⟨hpcb, entry, hentry, hport⟩ := h app happ
      exact ⟨hpcb, entry, List.mem_append_left _ hentry, hport⟩
    cases hitem : add.itemMemory with
    | false => exact hold
    | true =>
      simp only [if_true]
      intro app happ
      rcases List.mem_append.mp happ with happ | happ
      · exact hold app happ
      · obtain rfl := List.mem_singleton.mp happ
        exact ⟨rfl, _, List.mem_append_right _ (List.mem_singleton_self _), rfl⟩

theorem bound_addRun (adds : List (AddApplication Cb)) : Bound (addRun adds) := by
  have hrun : ∀ (adds : List (AddApplication Cb)) (r : Registry Cb), Bound r →
      Bound (adds.foldl (fun r add => (bmMiddlewareAddApplication r add).1) r) := by
    intro adds
    induction adds with
    | nil => exact fun r h => h
    | cons add adds ih => exact fun r h => ih _ (h.add add)
  exact hrun adds {} (by simp [Bound])

theorem application_port {app : MiddlewareApplication Cb} {port : UInt16}
    (h : r.application port = some app) : app ∈ r.applications ∧ app.port = port :=
  ⟨List.mem_of_find?_eq_some h, by simpa using List.find?_some h⟩

/-- The stack has a listener for the port of an application. -/
theorem Bound.listener (h : Bound r) {app : MiddlewareApplication Cb} {port : UInt16}
    (happ : r.application port = some app) :
    udpListener r.udpList port.toNat = some .bmMiddlewareRx := by
  obtain ⟨hmem, hport⟩ := application_port happ
  obtain ⟨-, entry, hentry, hentryPort⟩ := h app hmem
  have hsome : (r.udpList.find? fun entry => entry.1.toNat == port.toNat).isSome = true := by
    rw [List.find?_isSome]
    exact ⟨entry, hentry, by simp [hentryPort, hport]⟩
  obtain ⟨found, hfound⟩ := Option.isSome_iff_exists.mp hsome
  rw [udpListener, hfound]
  rfl

end Bound

/-! ## Delivery -/

/-- The payload of a datagram. -/
def udpPayload (frame : List UInt8) : List UInt8 :=
  (List.range (udpGetLength frame - udpHdrLen)).map fun i => byte frame (udpPayloadOffset + i)

def udpSrcPort (frame : List UInt8) : UInt16 := .ofNat (uint8ToUint16 frame udpSrcPortOffset)
def udpDstPort (frame : List UInt8) : UInt16 := .ofNat (uint8ToUint16 frame udpDstPortOffset)

/-- The node that sent a frame. -/
def senderOf (frame : List UInt8) : UInt64 := senderNodeId (addrAt frame ipv6SourceAddressOffset)

/-- A datagram is for the application of its destination port, if there is one. -/
def due {Cb : Type} (r : Registry Cb) (frame : List UInt8) : List (RxCall Cb) :=
  (r.application (udpDstPort frame)).toList.map fun app =>
    ⟨app.rxCb, senderOf frame, udpPayload frame, udpGetLength frame - udpHdrLen⟩

/-- When the middleware does with a datagram what is due. -/
def DeliveredRight {Cb : Type} (host : ByteOrder) (room : Room) (r : Registry Cb)
    (frame : List UInt8) : Prop :=
  match r.application (udpDstPort frame) with
  | some app => room.memory = true ∧ r.netQueue.length < netQueueLen ∧
    (r.application (udpSrcPort frame)).map (·.rxCb) = some app.rxCb ∧
      (host = .little ∨ senderOf frame = 0)
  | none => room.memory = true → r.netQueue.length < netQueueLen →
    udpListener r.udpList (udpDstPort frame).toNat ≠ none →
      r.application (udpSrcPort frame) = none

section Delivery
variable {Cb : Type} {host : ByteOrder} {room : Room} {r : Registry Cb} {frame : List UInt8}
  {size : Nat}

/-- What the task makes of a queue with one more item. -/
theorem middlewareNetTask_bmMiddlewareRx (r : Registry Cb) (call : UdpCall) :
    middlewareNetTask (bmMiddlewareRx r call).1 = middlewareNetTask r ++
      if r.netQueue.length < netQueueLen then
        (r.application call.port).toList.map fun app =>
          ⟨app.rxCb, call.nodeId, call.payload, call.size⟩
      else [] := by
  unfold bmMiddlewareRx
  split
  · have hround : ∀ queue, netTaskRound (⟨r.udpList, r.applications, queue⟩ : Registry Cb) =
        netTaskRound r := fun _ => rfl
    simp only [middlewareNetTask, List.filterMap_append, hround]
    cases happ : r.application call.port <;> simp [netTaskRound, happ]
  · simp

/-- The application of the source port is called. -/
theorem middlewareNetTask_l2Submit (h : Consistent frame size)
    (hnext : ipv6GetNextHeader frame = ipProtoUdp) :
    middlewareNetTask (l2Submit host room r frame size) = middlewareNetTask r ++
      if room.memory = true ∧ udpListener r.udpList (udpDstPort frame).toNat ≠ none ∧
          r.netQueue.length < netQueueLen then
        (r.application (udpSrcPort frame)).toList.map fun app =>
          ⟨app.rxCb, ipToNodeidOn host (addrAt frame ipv6SourceAddressOffset), udpPayload frame,
            udpGetLength frame - udpHdrLen⟩
      else [] := by
  have hport : (udpDstPort frame).toNat = uint8ToUint16 frame udpDstPortOffset :=
    UInt16.toNat_ofNat_of_lt' (uint8ToUint16_lt frame _)
  rw [l2Submit, bmL2Submit_udp h hnext, hport]
  cases room.memory with
  | false => simp
  | true =>
    cases hlistener : udpListener r.udpList (uint8ToUint16 frame udpDstPortOffset) with
    | none => simp
    | some cb =>
      cases cb
      simp only [if_true, Option.map_some, middlewareNetTask_bmMiddlewareRx]
      simp [udpSrcPort, udpPayload]

end Delivery

/-- The middleware calls the application of the source port. For every datagram the calls that are
due, and no others, are made in the case of `DeliveredRight` only. -/
theorem udp_delivered_iff {Cb : Type} (host : ByteOrder) (room : Room)
    (adds : List (AddApplication Cb)) (pending : List NetQueueItem) (frame : List UInt8)
    (size : Nat) (h : Consistent frame size) (hnext : ipv6GetNextHeader frame = ipProtoUdp) :
    let r : Registry Cb := { addRun adds with netQueue := pending }
    middlewareNetTask (l2Submit host room r frame size) = middlewareNetTask r ++ due r frame ↔
      DeliveredRight host room r frame := by
  intro r
  have hbound : Bound r := bound_addRun adds
  have hsender := ipToNodeidOn_eq_iff host (addrAt frame ipv6SourceAddressOffset)
  rw [middlewareNetTask_l2Submit h hnext, List.append_cancel_left_eq, DeliveredRight, due]
  cases hdst : r.application (udpDstPort frame) with
  | some app =>
    have hlistener := hbound.listener hdst
    rw [hlistener]
    by_cases hroom : room.memory = true ∧ r.netQueue.length < netQueueLen
    · rw [if_pos ⟨hroom.1, by simp, hroom.2⟩]
      cases r.application (udpSrcPort frame) with
      | none => simp
      | some app' => simp [hroom, senderOf, hsender]
    · rw [if_neg fun h => hroom ⟨h.1, h.2.2⟩]
      simp only [Option.toList_some, List.map_cons, List.map_nil]
      constructor
      · exact fun h => absurd h (by simp)
      · exact fun h => absurd ⟨h.1, h.2.1⟩ hroom
  | none =>
    simp only [Option.toList_none, List.map_nil]
    split
    next hroom =>
      cases r.application (udpSrcPort frame) <;> simp [hroom]
    next hroom =>
      refine iff_of_true rfl fun hmemory hqueue hlistener => ?_
      exact absurd ⟨hmemory, hlistener, hqueue⟩ hroom

/-- Applications 1 and 2 on ports 1000 and 2000. -/
def twoApplications : List (AddApplication Nat) :=
  [⟨1000, multicastGlobalAddr, 1, true, true⟩, ⟨2000, multicastGlobalAddr, 2, true, true⟩]

theorem udp_delivered_same_port :
    let frame := udpFrame .little (bmIpInit 7) 1000 1000 multicastGlobalAddr [5, 6]
    middlewareNetTask (l2Submit .little ⟨true, true⟩ (addRun twoApplications) frame frame.length) =
      [⟨1, 7, [5, 6], 2⟩] := by
  have hcarries := carriesDatagram_udpFrame .little (bmIpInit 7) 1000 1000 multicastGlobalAddr
    [5, 6] [] (by decide)
  rw [List.append_nil] at hcarries
  have hdst : udpDstPort (udpFrame .little (bmIpInit 7) 1000 1000 multicastGlobalAddr [5, 6]) =
      1000 := by decide +kernel
  have hsrc : udpSrcPort (udpFrame .little (bmIpInit 7) 1000 1000 multicastGlobalAddr [5, 6]) =
      1000 := by decide +kernel
  have hright := (udp_delivered_iff .little ⟨true, true⟩ twoApplications [] _ _ hcarries.consistent
    hcarries.next).mpr (by
      rw [DeliveredRight, hdst, hsrc]
      exact ⟨rfl, by decide, rfl, .inl rfl⟩)
  exact hright.trans (by decide +kernel)

/-- A datagram from port 2000 to port 1000 comes to application 2. -/
theorem udp_delivered_to_source_port :
    let frame := udpFrame .little (bmIpInit 7) 2000 1000 multicastGlobalAddr [5, 6]
    middlewareNetTask (l2Submit .little ⟨true, true⟩ (addRun twoApplications) frame frame.length) =
        [⟨2, 7, [5, 6], 2⟩] ∧
      due (addRun twoApplications) frame = [⟨1, 7, [5, 6], 2⟩] := by
  decide +kernel

/-- The middleware itself sends from the port that it sends to, so that its own messages reach
their application. -/
theorem netTx_delivered {Cb : Type} {sender : ByteOrder} {nodeId : UInt64} {room : Room}
    {r r' : Registry Cb} (hr' : Bound r') {port : UInt16} {buf trailing frame : List UInt8}
    {size : Nat} (hbuf : size ≤ buf.length)
    (hsend : bmMiddlewareNetTx sender (bmIpInit nodeId) true r' port (some buf) size = .ok frame)
    {app : MiddlewareApplication Cb} (happ : r.application port = some app) (hr : Bound r)
    (hmemory : room.memory = true) (hqueue : r.netQueue.length < netQueueLen) :
    middlewareNetTask (l2Submit .little room r (frame ++ trailing) (frame ++ trailing).length) =
      middlewareNetTask r ++ [⟨app.rxCb, nodeId, buf.take size, size⟩] := by
  unfold bmMiddlewareNetTx at hsend
  cases hfound : r'.application port with
  | none => simp [hfound] at hsend
  | some app' =>
    obtain ⟨hmem, rfl⟩ := application_port hfound
    rw [hfound] at hsend
    by_cases hsize : size ≤ maxPayloadLenUdp
    case neg => simp [hsize] at hsend
    have hlength : (buf.take size).length = size := List.length_take_of_le hbuf
    have hcarries := carriesDatagram_udpFrame sender (bmIpInit nodeId) app'.port app'.port app'.dest
      (buf.take size) trailing (by simp only [maxPayloadLenUdp, udpHdrLen] at *; omega)
    have hframe : frame = udpFrame sender (bmIpInit nodeId) app'.port app'.port app'.dest
        (buf.take size) := by
      simp only [hsize, Option.isSome_some, and_self, if_true, bmUdpTxPerform,
        (hr' app' hmem).1] at hsend
      exact (Except.ok.inj hsend).symm
    rw [hframe, l2Submit, hcarries.bmL2Submit, hr.listener happ, hmemory]
    simp only [if_true, Option.map_some, middlewareNetTask_bmMiddlewareRx, if_pos hqueue, happ]
    simp [ipToNodeidOn, ipToNodeid_eq, bmIpInit, senderNodeId_nodeidToIp, hlength]

end BmCore.Middleware
