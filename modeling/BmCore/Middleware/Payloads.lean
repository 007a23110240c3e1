import BmCore.Library.StringReads
import BmCore.Middleware.ServiceRequest

/-!
# Payloads of services

The callbacks of `bm_service.c` and `bm_service_request.c` on a message of any size: which bytes
they read, and which part of the message is handed to the handler or to the callback of a request.
Requests are checked against the length of the message, though only behind a read of their header.
Replies are not checked.
-/
namespace BmCore.Middleware
open Library

/-! ## Fields -/

/-- A field of `n` bytes. -/
def fieldNat (off n : Nat) : Access UInt8 Nat := do
  let bytes ← Access.readRange off n
  pure (leNat bytes)

section Fields
variable {beyond : Nat → UInt8} {buf : List UInt8} {off n : Nat}

theorem run_fieldNat :
    (fieldNat off n).run beyond buf = (leNat (window beyond buf off n), buf) := by
  rw [fieldNat, Access.run_bind, Access.run_readRange]
  rfl

theorem within_fieldNat (hn : 0 < n) :
    (fieldNat off n).Within beyond buf ↔ off + n ≤ buf.length := by
  rw [fieldNat, Access.within_bind, Access.within_readRange_iff]
  simp only [Access.within_pure, and_true]
  omega

end Fields

/-! ## Requests -/

/-- A call of a handler with `data_size` and `data`, an offset into the message, and the id for the
reply if there is one. -/
structure HandlerCall (Handler : Type) where
  elem : BmServiceListElem Handler
  dataSize : UInt32
  data : Nat
  id : Option UInt32
  deriving DecidableEq

section Requests
variable {Handler : Type} (handled : Bool) (topicLen dataLen : Nat)

/-- `_service_request_received_cb` at the service that compares equal. -/
def requestFoundAt (current : BmServiceListElem Handler) :
    Access UInt8 (Option (HandlerCall Handler)) := do
  let dataSize ← fieldNat (topicLen + 4) 4
  if dataLen ≠ 8 + dataSize then pure none
  else if topicLen ≠ current.service.bytes.length + bmServiceReqStr.length then pure none
  else do
    let dataSize ← fieldNat (topicLen + 4) 4
    if handled then do
      let id ← fieldNat topicLen 4
      pure (some ⟨current, .ofNat dataSize, topicLen + 8, some (.ofNat id)⟩)
    else pure (some ⟨current, .ofNat dataSize, topicLen + 8, none⟩)

/-- The loop of `_service_request_received_cb`; the data is behind the topic. -/
def requestReceivedAt : List (BmServiceListElem Handler) →
    Access UInt8 (Option (HandlerCall Handler))
  | [] => pure none
  | current :: list => do
    let same ← Access.strncmpEqAt 0 current.service.bytes current.service.bytes.length
    if same then requestFoundAt handled topicLen dataLen current else requestReceivedAt list

/-- `_service_request_received_cb` on a message -/
def serviceRequestReceivedAt (lock : Bool) (list : List (BmServiceListElem Handler)) :
    Access UInt8 (Option (HandlerCall Handler)) :=
  if lock then requestReceivedAt handled topicLen dataLen list else pure none

end Requests

/-! ## Replies -/

/-- A call of the callback of a request with `data_size` and `data`, an offset into the data. -/
structure ReplyCall where
  node : BmServiceRequestNode
  id : UInt32
  dataSize : UInt32
  data : Nat
  deriving DecidableEq

/-- `_service_request_cb` behind `_service_request_list_get_node_by_id` -/
def replyForAt (list : List BmServiceRequestNode) : Option BmServiceRequestNode →
    Access UInt8 (List BmServiceRequestNode × Option ReplyCall)
  | none => pure (list, none)
  | some node =>
    if node.replyCb.isSome then do
      let id ← fieldNat 8 4
      let dataSize ← fieldNat 12 4
      pure (requestListRemoveRequest list node, some ⟨node, .ofNat id, .ofNat dataSize, 16⟩)
    else pure (requestListRemoveRequest list node, none)

/-- `_service_request_cb` on the data of a message -/
def serviceRequestCbAt (self : UInt64) (lock : Bool) (list : List BmServiceRequestNode) :
    Access UInt8 (List BmServiceRequestNode × Option ReplyCall) := do
  let target ← fieldNat 0 8
  if UInt64.ofNat target ≠ self then pure (list, none)
  else if !lock then pure (list, none)
  else do
    let id ← fieldNat 8 4
    replyForAt list (getNodeById list (.ofNat id))

/-! ## Bounds -/

/-- The header of a request or reply is there, and tells the length of the rest. -/
def HeaderAgrees (headerLen : Nat) (data : List UInt8) : Prop :=
  headerLen ≤ data.length ∧
    data.length = headerLen + leNat ((data.drop (headerLen - 4)).take 4)

/-- The bytes of the message only are read, what a handler is given lies in the data, and no handler
is called for an inconsistent message. -/
structure RequestInBounds {Handler : Type} (handled lock : Bool)
    (list : List (BmServiceListElem Handler)) (topic data : List UInt8) (beyond : Nat → UInt8) :
    Prop where
  reads : (serviceRequestReceivedAt handled topic.length data.length lock list).Within beyond
    (topic ++ data)
  slices : ∀ call, ((serviceRequestReceivedAt handled topic.length data.length lock list).run
    beyond (topic ++ data)).1 = some call → topic.length ≤ call.data ∧
      call.data + call.dataSize.toNat ≤ topic.length + data.length
  calls : ¬ HeaderAgrees 8 data → ((serviceRequestReceivedAt handled topic.length data.length lock
    list).run beyond (topic ++ data)).1 = none

/-- The data only is read, what a callback is given lies in it, and an inconsistent message calls no
callback and leaves the requests alone. -/
structure ReplyInBounds (nodeId : UInt64) (lock : Bool) (list : List BmServiceRequestNode)
    (data : List UInt8) (beyond : Nat → UInt8) : Prop where
  reads : (serviceRequestCbAt nodeId lock list).Within beyond data
  slices : ∀ call, ((serviceRequestCbAt nodeId lock list).run beyond data).1.2 = some call →
    call.data + call.dataSize.toNat ≤ data.length
  calls : ¬ HeaderAgrees 16 data → ((serviceRequestCbAt nodeId lock list).run beyond data).1 =
    (list, none)

/-- The message ends inside the name of a service, with which it agrees so far. -/
def CutInside (msg : List UInt8) (service : ServiceName) : Prop :=
  msg <+: service.bytes ∧ msg ≠ service.bytes

section Requests
variable {Handler : Type} {handled lock : Bool} {list : List (BmServiceListElem Handler)}
  {topic data msg : List UInt8} {beyond : Nat → UInt8} {current : BmServiceListElem Handler}

/-- `strncmp` leaves the message at a name that goes on behind its end. -/
theorem within_strncmp (service : ServiceName) (msg : List UInt8) :
    (Access.strncmpEqAt 0 service.bytes service.bytes.length).Within beyond msg ↔
      ¬ CutInside msg service := by
  rw [Access.within_strncmpEqAt_iff, List.drop_zero, Nat.zero_add]
  constructor
  · rintro hcases ⟨hbegins, hne⟩
    have hlength : msg.length ≠ service.bytes.length := fun h => hne (hbegins.eq_of_length h)
    have hnul : 0 ∉ msg := fun h => service.nulFree (hbegins.subset h)
    rw [← strncmpEq_iff_begins hnul] at hbegins
    have hle := ((strncmpEq_iff_begins hnul _).mp hbegins).length_le
    rcases hcases with hzero | hroom | hmem | hfalse
    · omega
    · omega
    · exact hnul hmem
    · simp [hbegins] at hfalse
  · intro hcut
    by_contra hnot
    simp only [not_or, Bool.not_eq_false] at hnot
    obtain ⟨-, hshort, hnul, hsame⟩ := hnot
    rw [strncmpEq_iff_begins hnul] at hsame
    exact hcut ⟨hsame, fun heq => hshort (by rw [heq])⟩

theorem strncmpEq_window_zeros (a msg : List UInt8) (n : Nat) :
    strncmpEq (window (fun _ => 0) msg 0 n) a n = strncmpEq a msg n := by
  rw [window_zeros, List.drop_zero, Bool.eq_iff_iff, strncmpEq_iff, strncmpEq_iff, cString_chars,
    List.take_take, Nat.min_self]
  exact eq_comm

/-- Inside the message the name is compared with the beginning of the message. -/
theorem run_strncmp {service : ServiceName} (h : ¬ CutInside msg service) :
    (Access.strncmpEqAt 0 service.bytes service.bytes.length).run beyond msg =
      (decide (service.bytes <+: msg), msg) := by
  have hwithin : (Access.strncmpEqAt 0 service.bytes service.bytes.length).Within beyond msg :=
    (within_strncmp service msg).mpr h
  rw [← hwithin.run_eq fun _ => 0, Access.run_strncmpEqAt 0 service.bytes (Nat.le_refl _),
    strncmpEq_window_zeros]
  refine congrArg (·, msg) ?_
  rw [Bool.eq_iff_iff, decide_eq_true_iff, strncmpEq_iff_begins service.nulFree]

theorem within_requestFoundAt :
    (requestFoundAt handled topic.length data.length current).Within beyond (topic ++ data) ↔
      8 ≤ data.length := by
  rw [requestFoundAt, Access.within_bind, within_fieldNat (by omega), run_fieldNat,
    Access.within_ite, Access.within_ite, Access.within_bind, within_fieldNat (by omega),
    run_fieldNat, Access.within_ite, Access.within_bind, within_fieldNat (by omega),
    List.length_append]
  simp only [Access.within_pure, and_true, implies_true, true_and]
  omega

/-- What is handed to the handler is the rest of the data, if the header tells its length. -/
theorem requestFoundAt_some {call : HandlerCall Handler}
    (h : ((requestFoundAt handled topic.length data.length current).run beyond (topic ++ data)).1 =
      some call) : HeaderAgrees 8 data ∧ call.data = topic.length + 8 ∧
        call.dataSize.toNat ≤ data.length - 8 := by
  rw [requestFoundAt, Access.run_bind, run_fieldNat] at h
  simp only [Access.run_ite, Access.run_bind, run_fieldNat, Access.run_pure] at h
  generalize hsize : leNat (window beyond (topic ++ data) (topic.length + 4) 4) = size at h
  split_ifs at h with hagrees htopic hhandled
  all_goals
    have hlength := not_not.mp hagrees
    have hfield : window beyond (topic ++ data) (topic.length + 4) 4 = (data.drop 4).take 4 := by
      rw [window_append_right beyond topic data rfl (by omega), window_eq_slice _ _ (by omega)]
    obtain rfl := Option.some.inj h
    refine ⟨⟨by omega, ?_⟩, rfl, ?_⟩
    · rw [← hfield, hsize]
      exact hlength
    · rw [UInt32.toNat_ofNat']
      have := Nat.mod_le size (2 ^ 32)
      omega

theorem requestReceivedAt_some {call : HandlerCall Handler}
    (h : ((requestReceivedAt handled topic.length data.length list).run beyond (topic ++ data)).1 =
      some call) : HeaderAgrees 8 data ∧ call.data = topic.length + 8 ∧
        call.dataSize.toNat ≤ data.length - 8 := by
  induction list with
  | nil => simp [requestReceivedAt] at h
  | cons current list ih =>
    rw [requestReceivedAt, Access.run_bind, Access.run_strncmpEqAt 0 _ (Nat.le_refl _)] at h
    split at h
    · exact requestFoundAt_some h
    · exact ih h

/-- The names are compared up to the first one that begins the message. -/
theorem within_requestReceivedAt :
    (requestReceivedAt handled topic.length data.length list).Within beyond (topic ++ data) ↔
      (∀ e ∈ list.takeWhile fun e => ¬ e.service.bytes <+: topic ++ data,
        ¬ CutInside (topic ++ data) e.service) ∧
      ((∃ e ∈ list, e.service.bytes <+: topic ++ data) → 8 ≤ data.length) := by
  induction list with
  | nil => exact iff_of_true (Access.within_pure _) (by simp)
  | cons current list ih =>
    rw [requestReceivedAt, Access.within_bind, within_strncmp]
    by_cases hcut : CutInside (topic ++ data) current.service
    · have hnot : ¬ current.service.bytes <+: topic ++ data := by
        intro hbegins
        exact hcut.2 (hcut.1.eq_of_length_le hbegins.length_le)
      simp [hcut, hnot]
    · rw [run_strncmp hcut]
      by_cases hbegins : current.service.bytes <+: topic ++ data
      · simp [hcut, hbegins, within_requestFoundAt]
      · simp [hcut, hbegins, ih]

/-- A request keeps to its bounds, if it is not read outside. -/
theorem requestInBounds_iff : RequestInBounds handled lock list topic data beyond ↔
    (serviceRequestReceivedAt handled topic.length data.length lock list).Within beyond
      (topic ++ data) := by
  refine ⟨RequestInBounds.reads, fun hreads => ?_⟩
  have hcalled : ∀ call, ((serviceRequestReceivedAt handled topic.length data.length lock list).run
      beyond (topic ++ data)).1 = some call → HeaderAgrees 8 data ∧
        call.data = topic.length + 8 ∧ call.dataSize.toNat ≤ data.length - 8 := by
    intro call hcall
    cases lock with
    | true => exact requestReceivedAt_some hcall
    | false => simp [serviceRequestReceivedAt] at hcall
  refine ⟨hreads, fun call hcall => ?_, fun hagrees => ?_⟩
  · obtain ⟨⟨hlength, -⟩, hoff, hsize⟩ := hcalled call hcall
    omega
  · exact Option.eq_none_iff_forall_ne_some.mpr fun call hcall => hagrees (hcalled call hcall).1

/-- What a handler finds at its arguments. -/
def HandlerCall.dispatch (call : HandlerCall Handler) (msg : Delivery) :
    BmServiceListElem Handler × Option UInt32 × List UInt8 :=
  (call.elem, call.id, chars call.dataSize.toNat ((msg.topic ++ msg.data).drop call.data))

theorem requestFoundAt_zeros (current : BmServiceListElem Handler) (msg : Delivery) :
    ((requestFoundAt true msg.topic.length msg.data.length current).run (fun _ => 0)
      (msg.topic ++ msg.data)).1.map (·.dispatch msg) =
      let header := BmServiceRequestDataHeader.ofBytes msg.data
      if msg.data.length ≠ 8 + header.dataSize.toNat then none
      else if msg.topic.length ≠ current.service.bytes.length + bmServiceReqStr.length then none
      else some (current, some header.id, chars header.dataSize.toNat header.data) := by
  have hfield : ∀ off n, window (fun _ => 0) (msg.topic ++ msg.data) (msg.topic.length + off) n =
      chars n (msg.data.drop off) := by
    intro off n
    rw [window_zeros, List.drop_append, List.drop_eq_nil_of_le (by omega)]
    simp
  have hsize : (UInt32.ofNat (leNat (chars 4 (msg.data.drop 4)))).toNat =
      leNat (chars 4 (msg.data.drop 4)) := by
    have hlt := leNat_lt (chars 4 (msg.data.drop 4))
    rw [length_chars] at hlt
    rw [UInt32.toNat_ofNat', Nat.mod_eq_of_lt (by omega)]
  have hid := hfield 0 4
  rw [Nat.add_zero, List.drop_zero] at hid
  have hdata : (msg.topic ++ msg.data).drop (msg.topic.length + 8) = msg.data.drop 8 := by
    rw [List.drop_append, List.drop_eq_nil_of_le (by omega)]
    simp
  simp only [requestFoundAt, Access.run_bind, run_fieldNat, Access.run_ite, Access.run_pure, hfield,
    hid, if_true, BmServiceRequestDataHeader.ofBytes, hsize]
  split_ifs
  · rfl
  · rfl
  · rw [Option.map_some, HandlerCall.dispatch, hsize, hdata]

/-- The list model has the calls of the handlers. -/
theorem serviceRequestReceivedCb_eq (list : List (BmServiceListElem Handler)) (msg : Delivery) :
    (serviceRequestReceivedCb list msg).map (fun d => (d.elem, some d.id, d.data)) =
      ((serviceRequestReceivedAt true msg.topic.length msg.data.length true list).run (fun _ => 0)
        (msg.topic ++ msg.data)).1.map (·.dispatch msg) := by
  rw [serviceRequestReceivedAt, if_pos rfl]
  induction list with
  | nil => rfl
  | cons current list ih =>
    rw [requestReceivedAt, Access.run_bind, Access.run_strncmpEqAt 0 _ (Nat.le_refl _),
      strncmpEq_window_zeros, serviceRequestReceivedCb, List.find?_cons]
    cases strncmpEq current.service.bytes (msg.topic ++ msg.data) current.service.bytes.length with
    | true =>
      rw [if_pos rfl, requestFoundAt_zeros]
      dsimp only
      split_ifs <;> rfl
    | false => exact ih

end Requests

section Replies
variable {nodeId : UInt64} {lock : Bool} {list : List BmServiceRequestNode} {data : List UInt8}
  {beyond : Nat → UInt8} {node : BmServiceRequestNode}

theorem window_take {n : Nat} (h : n ≤ data.length) : window beyond data 0 n = data.take n := by
  rw [window_eq_slice beyond data (show 0 + n ≤ data.length by omega), List.drop_zero]

theorem within_replyForAt (list : List BmServiceRequestNode)
    (found : Option BmServiceRequestNode) : (replyForAt list found).Within beyond data ↔
      ∀ node, found = some node → node.replyCb.isSome = true → 16 ≤ data.length := by
  cases found with
  | none => exact iff_of_true (Access.within_pure _) (by simp)
  | some node =>
    rw [replyForAt, Access.within_ite, Access.within_bind, within_fieldNat (by omega), run_fieldNat,
      Access.within_bind, within_fieldNat (by omega)]
    simp only [Access.within_pure, and_true, implies_true, Option.some.injEq, forall_eq']
    exact forall_congr' fun _ => ⟨And.right, fun h => ⟨by omega, h⟩⟩

theorem within_serviceRequestCbAt : (serviceRequestCbAt nodeId lock list).Within beyond data ↔
    8 ≤ data.length ∧ (UInt64.ofNat (leNat (data.take 8)) = nodeId → lock = true →
      12 ≤ data.length ∧ ∀ node, getNodeById list (.ofNat (leNat ((data.drop 8).take 4))) =
        some node → node.replyCb.isSome = true → 16 ≤ data.length) := by
  rw [serviceRequestCbAt, Access.within_bind, within_fieldNat (by omega), Nat.zero_add]
  refine and_congr_right fun htarget => ?_
  rw [run_fieldNat, window_take htarget, Access.within_ite,
    Access.within_ite, Access.within_bind, within_fieldNat (by omega), run_fieldNat,
    within_replyForAt]
  have hid : (12 ≤ data.length ∧ ∀ node,
        getNodeById list (.ofNat (leNat (window beyond data 8 4))) = some node →
          node.replyCb.isSome = true → 16 ≤ data.length) ↔ 12 ≤ data.length ∧ ∀ node,
        getNodeById list (.ofNat (leNat ((data.drop 8).take 4))) = some node →
          node.replyCb.isSome = true → 16 ≤ data.length :=
    and_congr_right fun hlength => by
      rw [window_eq_slice beyond data (show 8 + 4 ≤ data.length from hlength)]
  cases lock <;> simp [Access.within_pure, hid]

/-- The run on a reply of which the header is there as far as it is read. -/
theorem run_serviceRequestCbAt (list : List BmServiceRequestNode)
    (h : UInt64.ofNat (leNat (window beyond data 0 8)) = nodeId) :
    ((serviceRequestCbAt nodeId true list).run beyond data) =
      (replyForAt list (getNodeById list (.ofNat (leNat (window beyond data 8 4))))).run beyond
        data := by
  rw [serviceRequestCbAt, Access.run_bind, run_fieldNat, if_neg (not_not.mpr h)]
  rw [Bool.not_true, if_neg Bool.false_ne_true, Access.run_bind, run_fieldNat]

theorem run_serviceRequestCbAt_other (list : List BmServiceRequestNode)
    (h : UInt64.ofNat (leNat (window beyond data 0 8)) ≠ nodeId ∨ lock = false) :
    ((serviceRequestCbAt nodeId lock list).run beyond data).1 = (list, none) := by
  rw [serviceRequestCbAt, Access.run_bind, run_fieldNat]
  rcases h with hother | rfl
  · rw [if_pos hother]
    rfl
  · split <;> rfl

/-- A node that is found leaves the list. -/
theorem run_replyForAt_some (hnode : node ∈ list) :
    ((replyForAt list (some node)).run beyond data).1.1 ≠ list := by
  have hremoved : requestListRemoveRequest list node ≠ list := by
    intro hsame
    have hlength : (list.eraseP (·.call == node.call)).length = list.length - 1 :=
      List.length_eraseP_of_mem hnode (beq_self_eq_true node.call)
    have hpos := List.length_pos_of_mem hnode
    rw [requestListRemoveRequest] at hsame
    rw [hsame] at hlength
    omega
  rw [replyForAt, Access.run_ite]
  split
  · exact hremoved
  · exact hremoved

/-- The callback is given as many bytes behind the header as the header tells. -/
theorem run_replyForAt_call {call : ReplyCall} {found : Option BmServiceRequestNode}
    (h : ((replyForAt list found).run beyond data).1.2 = some call) :
    call.data = 16 ∧ call.dataSize = .ofNat (leNat (window beyond data 12 4)) := by
  cases found with
  | none => simp [replyForAt] at h
  | some node =>
    rw [replyForAt, Access.run_ite] at h
    split at h
    · simp only [Access.run_bind, run_fieldNat, Access.run_pure] at h
      obtain rfl := Option.some.inj h
      exact ⟨rfl, rfl⟩
    · simp at h

/-- A reply keeps to its bounds, exactly if the target is there, and a reply for a request of this
node agrees with its header. -/
theorem replyInBounds_iff : ReplyInBounds nodeId lock list data beyond ↔
    8 ≤ data.length ∧ (UInt64.ofNat (leNat (data.take 8)) = nodeId → lock = true →
      12 ≤ data.length ∧ ∀ node, getNodeById list (.ofNat (leNat ((data.drop 8).take 4))) =
        some node → HeaderAgrees 16 data) := by
  constructor
  · intro hlaw
    obtain ⟨htarget, hself⟩ := within_serviceRequestCbAt.mp hlaw.reads
    refine ⟨htarget, fun hmine hlock => ⟨(hself hmine hlock).1, fun node hnode => ?_⟩⟩
    have hlength := (hself hmine hlock).1
    by_contra hagrees
    subst hlock
    have hsame := congrArg Prod.fst (hlaw.calls hagrees)
    rw [← window_take htarget] at hmine
    rw [← window_eq_slice beyond data (show 8 + 4 ≤ data.length from hlength)] at hnode
    rw [run_serviceRequestCbAt list hmine, hnode] at hsame
    exact run_replyForAt_some (List.mem_of_find?_eq_some hnode) hsame
  · rintro ⟨htarget, hself⟩
    have hreads : (serviceRequestCbAt nodeId lock list).Within beyond data :=
      within_serviceRequestCbAt.mpr ⟨htarget, fun hmine hlock => ⟨(hself hmine hlock).1,
        fun node hnode _ => ((hself hmine hlock).2 node hnode).1⟩⟩
    by_cases hother : UInt64.ofNat (leNat (window beyond data 0 8)) ≠ nodeId ∨ lock = false
    · have hrun := run_serviceRequestCbAt_other list hother
      exact ⟨hreads, by simp [hrun], fun _ => hrun⟩
    · obtain ⟨hmine, hlock⟩ := not_or.mp hother
      obtain rfl : lock = true := by simpa using hlock
      have hmine := not_not.mp hmine
      have hrun := run_serviceRequestCbAt list hmine
      rw [window_take htarget] at hmine
      obtain ⟨hlength, hagree⟩ := hself hmine rfl
      rw [window_eq_slice beyond data (show 8 + 4 ≤ data.length from hlength)] at hrun
      refine ⟨hreads, ?_, ?_⟩
      · rw [hrun]
        intro call hcall
        obtain ⟨hoff, hsize⟩ := run_replyForAt_call hcall
        cases hnode : getNodeById list (.ofNat (leNat ((data.drop 8).take 4))) with
        | none => simp [hnode, replyForAt] at hcall
        | some node =>
          obtain ⟨hheader, htold⟩ := hagree node hnode
          have htold : data.length = 16 + leNat ((data.drop 12).take 4) := htold
          rw [hoff, hsize, UInt32.toNat_ofNat', window_eq_slice beyond data
            (show 12 + 4 ≤ data.length from hheader)]
          have := Nat.mod_le (leNat ((data.drop 12).take 4)) (2 ^ 32)
          omega
      · rw [hrun]
        intro hnot
        cases hnode : getNodeById list (.ofNat (leNat ((data.drop 8).take 4))) with
        | none => rfl
        | some node => exact absurd (hagree node hnode) hnot

end Replies

/-- A message keeps to its bounds, exactly in these cases. As a request: the lock is not taken, or
the message ends inside none of the names it is compared with, up to the first one that begins it,
and has the header of a request if there is one. As a reply: it has its target, and if this is the
node and the lock is taken, its id, and if there is a request with the id, it agrees with its
header. -/
theorem payloads_in_bounds_iff {Handler : Type} (handled lock : Bool)
    (services : List (BmServiceListElem Handler)) (nodeId : UInt64)
    (requests : List BmServiceRequestNode) (topic data : List UInt8) (beyond : Nat → UInt8) :
    (RequestInBounds handled lock services topic data beyond ↔
      (lock = true →
        (∀ e ∈ services.takeWhile fun e => ¬ e.service.bytes <+: topic ++ data,
          ¬ CutInside (topic ++ data) e.service) ∧
        ((∃ e ∈ services, e.service.bytes <+: topic ++ data) → 8 ≤ data.length))) ∧
    (ReplyInBounds nodeId lock requests data beyond ↔
      8 ≤ data.length ∧ (UInt64.ofNat (leNat (data.take 8)) = nodeId → lock = true →
        12 ≤ data.length ∧
        ∀ node, getNodeById requests (.ofNat (leNat ((data.drop 8).take 4))) = some node →
          HeaderAgrees 16 data)) := by
  refine ⟨?_, replyInBounds_iff⟩
  rw [requestInBounds_iff, serviceRequestReceivedAt, Access.within_ite, within_requestReceivedAt]
  simp only [Access.within_pure, implies_true, and_true]

/-- The request 0 of node 7, which has a callback. -/
def requestZero : BmServiceRequestNode := ⟨0, nameA, some 1, 1000, 0, 0⟩

/-- A reply for it that tells four bytes of data, and has none. -/
def bareReply : List UInt8 := [7, 0, 0, 0, 0, 0, 0, 0, 0, 0, 0, 0, 4, 0, 0, 0]

/-- The callback is given four bytes behind the message, and the request is removed. A request
without data is read behind its end. -/
theorem bareReply_handed_on :
    ¬ ReplyInBounds 7 true [requestZero] bareReply (fun _ => 0x5A) ∧
    ((serviceRequestCbAt 7 true [requestZero]).run (fun _ => 0x5A) bareReply).1 =
      ([], some ⟨requestZero, 0, 4, 16⟩) ∧
    ¬ RequestInBounds true true [(⟨nameA, 1⟩ : BmServiceListElem Nat)]
      (nameA.bytes ++ bmServiceReqStr) [] (fun _ => 0x5A) := by
  refine ⟨fun hlaw => ?_, by decide, fun hlaw => ?_⟩
  · have hslice := hlaw.slices ⟨requestZero, 0, 4, 16⟩ (by decide)
    exact absurd hslice (by decide)
  · exact absurd hlaw.reads (by decide)

end BmCore.Middleware
