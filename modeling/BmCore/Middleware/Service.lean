import BmCore.Library.Bytes
import BmCore.Middleware.PubSub

/-!
# Services

`middleware/bm_service.c`. A service is registered with a name and takes the requests on the topic
`<name>/req`. Its name is compared with the beginning of a topic, and the first service that
compares equal is taken; to unregister a service, the beginning of its name is compared. So a
service is hidden by one that is registered before and whose name is a prefix, and it may be removed
in place of one whose name is a prefix of its own.
-/
namespace BmCore.Middleware
open Library

/-- `BM_SERVICE_REQ_STR` -/
def bmServiceReqStr : List UInt8 := [0x2F, 0x72, 0x65, 0x71]
/-- `BM_SERVICE_REP_STR` -/
def bmServiceRepStr : List UInt8 := [0x2F, 0x72, 0x65, 0x70]
/-- `MAX_BM_SERVICE_DATA_SIZE` -/
def maxBmServiceDataSize : Nat := 1024
/-- `BM_COMMON_PUB_SUB_VERSION` -/
def bmCommonPubSubVersion : UInt8 := 2

/-- A service string; there is no NUL in what `strlen` counts. -/
structure ServiceName where
  bytes : List UInt8
  nulFree : 0 ∉ bytes
  deriving DecidableEq

/-- The topic of a service as pub/sub takes it, with its length in a `uint16_t`. -/
def ServiceName.topic (service : ServiceName) (suffix : List UInt8) : List UInt8 :=
  (service.bytes ++ suffix).take ((service.bytes.length + suffix.length) % 2 ^ 16)

/-- The callbacks on a node: of services, of service requests, and of applications. -/
inductive ServiceCallback where
  | serviceRequestReceivedCb
  | serviceRequestCb
  | app (id : Nat)
  deriving DecidableEq

/-- `BmServiceListElem` -/
structure BmServiceListElem (Handler : Type) where
  service : ServiceName
  serviceHandler : Handler
  deriving DecidableEq

/-- `BM_SERVICE_CONTEXT`, with the subscriptions of the node. -/
structure BmServiceContext (Handler : Type) where
  serviceList : List (BmServiceListElem Handler)
  subs : List (BmSub ServiceCallback)
  deriving DecidableEq

/-- `BmServiceRequestDataHeader`, with what is behind it. -/
structure BmServiceRequestDataHeader where
  id : UInt32
  dataSize : UInt32
  data : List UInt8

def BmServiceRequestDataHeader.ofBytes (b : List UInt8) : BmServiceRequestDataHeader where
  id := .ofNat (leNat (chars 4 b))
  dataSize := .ofNat (leNat (chars 4 (b.drop 4)))
  data := b.drop 8

/-- The payload of a request. -/
def requestBytes (id : UInt32) (data : List UInt8) : List UInt8 :=
  leBytes 4 id.toNat ++ leBytes 4 data.length ++ data

/-- What may fail when a service is registered: the lock, the allocations of the element and of the
topic, and the resource table. -/
structure ServiceFaults where
  lock : Bool
  elem : Bool
  topicStr : Bool
  resource : BmErr

def noFaults : ServiceFaults := ⟨true, true, true, .ok⟩

/-- A call of a handler: the service, the sender of the request, its id and its data. -/
structure Dispatch (Handler : Type) where
  elem : BmServiceListElem Handler
  nodeId : UInt64
  id : UInt32
  data : List UInt8
  deriving DecidableEq

section Service
variable {Handler : Type}

/-- `_service_list_remove_service` -/
def serviceListRemoveService (list : List (BmServiceListElem Handler)) (service : ServiceName) :
    List (BmServiceListElem Handler) × Bool :=
  let hit := fun current : BmServiceListElem Handler =>
    strncmpEq current.service.bytes service.bytes service.bytes.length
  (list.eraseP hit, list.any hit)

/-- `bm_service_register` -/
def bmServiceRegister (faults : ServiceFaults) (ctx : BmServiceContext Handler)
    (service : ServiceName) (serviceHandler : Handler) : BmServiceContext Handler × Bool :=
  if !faults.lock then (ctx, false)
  else if !faults.elem then (ctx, false)
  else
    let ctx := { ctx with serviceList := ctx.serviceList ++ [⟨service, serviceHandler⟩] }
    if !faults.topicStr then (ctx, false)
    else
      let (subs, err) := bmSubWl ctx.subs (service.topic bmServiceReqStr)
        (some .serviceRequestReceivedCb) faults.resource
      ({ ctx with subs }, err == .ok)

/-- `bm_service_unregister` -/
def bmServiceUnregister (faults : ServiceFaults) (ctx : BmServiceContext Handler)
    (service : ServiceName) : BmServiceContext Handler × Bool :=
  if !faults.lock then (ctx, false)
  else if !faults.topicStr then (ctx, false)
  else
    let (subs, err) := bmUnsubWl ctx.subs (service.topic bmServiceReqStr)
      (some .serviceRequestReceivedCb)
    if err ≠ .ok then ({ ctx with subs }, false)
    else
      let (serviceList, removed) := serviceListRemoveService ctx.serviceList service
      (⟨serviceList, subs⟩, removed)

/-- `_service_request_received_cb` up to the call of the handler. `strncmp` may read on from the
topic into the data. -/
def serviceRequestReceivedCb (list : List (BmServiceListElem Handler)) (msg : Delivery) :
    Option (Dispatch Handler) :=
  match list.find? fun current =>
    strncmpEq current.service.bytes (msg.topic ++ msg.data) current.service.bytes.length with
  | none => none
  | some current =>
    let requestHeader := BmServiceRequestDataHeader.ofBytes msg.data
    if msg.data.length ≠ 8 + requestHeader.dataSize.toNat then none
    else if msg.topic.length ≠ current.service.bytes.length + bmServiceReqStr.length then none
    else some ⟨current, msg.nodeId, requestHeader.id,
      chars requestHeader.dataSize.toNat requestHeader.data⟩

/-! ## Names -/

/-- There is a service of this name. -/
def Registered (list : List (BmServiceListElem Handler)) (service : ServiceName) : Prop :=
  ∃ e ∈ list, e.service = service

/-- The services before the first one of a name; all, if there is none. -/
def ahead (list : List (BmServiceListElem Handler)) (service : ServiceName) :
    List (BmServiceListElem Handler) :=
  list.takeWhile (·.service ≠ service)

/-- A request for a service that is registered reaches the service of exactly this name. -/
def DispatchedByName (ctx : BmServiceContext Handler) (nodeId : UInt64) (service : ServiceName)
    (id : UInt32) (data message : List UInt8) : Prop :=
  Registered ctx.serviceList service →
    ∃ call ∈ bmHandleMsg ctx.subs nodeId message message.length,
      call.1 = .serviceRequestReceivedCb ∧ ∃ e, e.service = service ∧
        serviceRequestReceivedCb ctx.serviceList call.2 = some ⟨e, nodeId, id, data⟩

/-- The service of exactly this name is removed, and no other one. -/
def UnregisteredByName (faults : ServiceFaults) (ctx : BmServiceContext Handler)
    (service : ServiceName) : Prop :=
  (bmServiceUnregister faults ctx service).1.serviceList =
    ctx.serviceList.eraseP (·.service = service)

/-- The callback of services is called for a topic. -/
def CalledFor (subs : List (BmSub ServiceCallback)) (topic : List UInt8) : Prop :=
  ∃ sub ∈ subs, bmWildcardMatch topic sub.topic = true ∧
    ServiceCallback.serviceRequestReceivedCb ∈ sub.callbacks

/-- The callback of services can be unsubscribed from a topic. -/
def SubscribedTo (subs : List (BmSub ServiceCallback)) (topic : List UInt8) : Prop :=
  ValidTopic topic ∧ ∃ sub, getSub subs topic false = some sub ∧
    ServiceCallback.serviceRequestReceivedCb ∈ sub.callbacks

section Names
variable {service : ServiceName} {list : List (BmServiceListElem Handler)}

theorem strncmpEq_iff_begins {a : List UInt8} (ha : 0 ∉ a) (b : List UInt8) :
    strncmpEq a b a.length = true ↔ a <+: b := by
  rw [strncmpEq_iff, cString_eq_self ha, List.take_length]
  constructor
  · intro h
    rw [h]
    exact (List.take_prefix _ _).trans (List.takeWhile_prefix _)
  · rintro ⟨rest, rfl⟩
    have hstring : cString (a ++ rest) = a ++ cString rest := by
      refine List.takeWhile_append_of_pos fun x hx => ?_
      simp only [bne_iff_ne, ne_eq]
      rintro rfl
      exact ha hx
    rw [hstring, List.take_left]

theorem strncmpEq_iff_extends {a b : List UInt8} (ha : 0 ∉ a) (hb : 0 ∉ b) :
    strncmpEq a b b.length = true ↔ b <+: a := by
  rw [strncmpEq_iff, cString_eq_self ha, cString_eq_self hb, List.take_length,
    List.prefix_iff_eq_take, eq_comm]

/-- The first element that meets `q` has the name, if none ahead of it meets `q`. -/
theorem find?_ahead {q : BmServiceListElem Handler → Bool}
    (hq : ∀ e, e.service = service → q e = true) (hregistered : Registered list service) :
    (∃ e, list.find? q = some e ∧ e.service = service) ↔ ∀ e ∈ ahead list service, q e = false := by
  unfold ahead
  obtain ⟨e, he, hname⟩ := hregistered
  induction list with
  | nil => simp at he
  | cons e' list ih =>
    by_cases hname' : e'.service = service
    · simp [hname', hq e' hname']
    · have he' : e ∈ list := (List.mem_cons.mp he).resolve_left (by grind)
      cases hqe : q e' with
      | true => simp [hname', hqe]
      | false => simpa [hname', hqe] using ih he'

theorem eraseP_ahead {q : BmServiceListElem Handler → Bool}
    (hq : ∀ e, e.service = service → q e = true) :
    list.eraseP q = list.eraseP (·.service = service) ↔ ∀ e ∈ ahead list service, q e = false := by
  -- one element less at another place, or one element less at all
  have hshift : ∀ (e : BmServiceListElem Handler) (l : List (BmServiceListElem Handler)),
      e.service ≠ service → l ≠ e :: l.eraseP (·.service = service) := by
    intro e l he
    induction l with
    | nil => simp
    | cons e' l ih => grind
  unfold ahead
  induction list with
  | nil => simp
  | cons e list ih =>
    by_cases hname : e.service = service
    · simp [hname, hq e hname]
    · cases hqe : q e with
      | true =>
        have := hshift e list hname
        simp [hname, hqe, this]
      | false =>
        simp [hname, hqe, ih]

end Names

/-! ## Calls -/

section Calls
variable {service : ServiceName} {ctx : BmServiceContext Handler}

/-- The header of a request is read back. -/
theorem ofBytes_requestBytes (id : UInt32) {data : List UInt8} (h : data.length < 2 ^ 32) :
    BmServiceRequestDataHeader.ofBytes (requestBytes id data) =
      ⟨id, .ofNat data.length, data⟩ := by
  have hid : chars 4 (requestBytes id data) = leBytes 4 id.toNat := by
    simp [chars, requestBytes]
  have hsize : chars 4 ((requestBytes id data).drop 4) = leBytes 4 data.length := by
    rw [requestBytes, List.append_assoc, List.drop_left' (by simp)]
    simp [chars]
  have hdata : (requestBytes id data).drop 8 = data := by
    rw [requestBytes, List.drop_left' (by simp)]
  rw [BmServiceRequestDataHeader.ofBytes, hid, hsize, hdata, leNat_leBytes id.toNat_lt,
    leNat_leBytes h, UInt32.ofNat_toNat]

/-- A request is given to the first service whose name begins its topic, if this is the whole
name. -/
theorem serviceRequestReceivedCb_request {list : List (BmServiceListElem Handler)}
    {nodeId : UInt64} {id : UInt32} {data : List UInt8} (hsize : data.length < 2 ^ 32) :
    (∃ e, e.service = service ∧ serviceRequestReceivedCb list
      ⟨nodeId, service.bytes ++ bmServiceReqStr, requestBytes id data, 0, bmCommonPubSubVersion⟩ =
        some ⟨e, nodeId, id, data⟩) ↔
    ∃ e, list.find? (fun current => strncmpEq current.service.bytes
      (service.bytes ++ bmServiceReqStr ++ requestBytes id data) current.service.bytes.length) =
        some e ∧ e.service = service := by
  have hheader := ofBytes_requestBytes id hsize
  have hlen : (requestBytes id data).length = 8 + data.length := by
    simp [requestBytes]
    omega
  have hdata : chars data.length data = data := by simp [chars]
  have hsize' : (UInt32.ofNat data.length).toNat = data.length := by
    rw [UInt32.toNat_ofNat', Nat.mod_eq_of_lt hsize]
  unfold serviceRequestReceivedCb
  dsimp only
  cases list.find? _ with
  | none => simp
  | some current =>
    dsimp only
    rw [hheader, hlen, if_neg (by rw [hsize']; simp)]
    constructor
    · rintro ⟨e, rfl, he⟩
      split_ifs at he
      obtain ⟨rfl, -⟩ := Dispatch.mk.inj (Option.some.inj he)
      exact ⟨_, rfl, rfl⟩
    · rintro ⟨e, he, hname⟩
      obtain rfl := Option.some.inj he
      refine ⟨current, hname, ?_⟩
      rw [if_neg (by simp [hname]), hsize', hdata]

theorem dispatchedByName_iff {nodeId : UInt64} {id : UInt32} {data message : List UInt8}
    (hdata : data.length ≤ maxBmServiceDataSize)
    (hmessage : bmPubWl (service.bytes ++ bmServiceReqStr) (requestBytes id data) 0
      bmCommonPubSubVersion = .ok message) :
    DispatchedByName ctx nodeId service id data message ↔
      (Registered ctx.serviceList service → CalledFor ctx.subs (service.bytes ++ bmServiceReqStr) ∧
        ∀ e ∈ ahead ctx.serviceList service,
          ¬ e.service.bytes <+: service.bytes ++ bmServiceReqStr ++ requestBytes id data) := by
  have hlen : (service.bytes ++ bmServiceReqStr).length < bmTopicMaxLen := by
    unfold bmPubWl at hmessage
    split_ifs at hmessage with hzero hlong
    exact Nat.lt_of_not_le hlong
  have hsize : (requestBytes id data).length ≤ 1032 := by
    simp only [maxBmServiceDataSize] at hdata
    simp [requestBytes]
    omega
  simp only [bmTopicMaxLen] at hlen
  have hdelivery := ofBuf_bmPubWl hmessage (by omega) nodeId
  have hhit : ∀ e : BmServiceListElem Handler, strncmpEq e.service.bytes
      (service.bytes ++ bmServiceReqStr ++ requestBytes id data) e.service.bytes.length = true ↔
        e.service.bytes <+: service.bytes ++ bmServiceReqStr ++ requestBytes id data :=
    fun e => strncmpEq_iff_begins e.service.nulFree _
  have hself : ∀ e : BmServiceListElem Handler, e.service = service → strncmpEq e.service.bytes
      (service.bytes ++ bmServiceReqStr ++ requestBytes id data) e.service.bytes.length = true := by
    rintro e rfl
    rw [hhit, List.append_assoc]
    exact List.prefix_append _ _
  have hcalled : ∀ call, call ∈ bmHandleMsg ctx.subs nodeId message message.length ∧
      call.1 = .serviceRequestReceivedCb ↔
        CalledFor ctx.subs (service.bytes ++ bmServiceReqStr) ∧ call = (.serviceRequestReceivedCb,
          ⟨nodeId, service.bytes ++ bmServiceReqStr, requestBytes id data, 0,
            bmCommonPubSubVersion⟩) := by
    rintro ⟨callback, msg⟩
    rw [bmHandleMsg, hdelivery]
    simp only [List.mem_flatMap, CalledFor]
    grind
  refine forall_congr' fun hregistered => ?_
  have hfind := find?_ahead hself hregistered
  rw [← serviceRequestReceivedCb_request (by simp only [maxBmServiceDataSize] at hdata; omega)]
    at hfind
  have hahead : (∀ e ∈ ahead ctx.serviceList service, ¬ e.service.bytes <+: service.bytes ++
      bmServiceReqStr ++ requestBytes id data) ↔ ∀ e ∈ ahead ctx.serviceList service,
        strncmpEq e.service.bytes (service.bytes ++ bmServiceReqStr ++ requestBytes id data)
          e.service.bytes.length = false := by
    simp only [← hhit, Bool.not_eq_true]
  rw [hahead, ← hfind]
  constructor
  · rintro ⟨call, hcall, hcallback, hdispatch⟩
    obtain ⟨hsub, rfl⟩ := (hcalled call).mp ⟨hcall, hcallback⟩
    exact ⟨hsub, hdispatch⟩
  · rintro ⟨hsub, hdispatch⟩
    obtain ⟨hcall, hcallback⟩ := (hcalled _).mpr ⟨hsub, rfl⟩
    exact ⟨_, hcall, hcallback, hdispatch⟩

theorem bmUnsubWl_ok_iff (subs : List (BmSub ServiceCallback)) (topic : List UInt8) :
    (bmUnsubWl subs topic (some .serviceRequestReceivedCb)).2 = .ok ↔ SubscribedTo subs topic := by
  unfold bmUnsubWl SubscribedTo ValidTopic
  by_cases hzero : topic.length = 0
  · simp [hzero]
  by_cases hlong : topic.length ≥ bmTopicMaxLen
  · simp [hzero, hlong, Nat.not_lt.mpr hlong]
  simp only [hzero, hlong, Nat.lt_of_not_le hlong, if_false, not_false_eq_true, ne_eq, true_and]
  cases hget : getSub subs topic false with
  | none => simp
  | some sub =>
    by_cases hmem : ServiceCallback.serviceRequestReceivedCb ∈ sub.callbacks <;> simp [hmem]

theorem unregisteredByName_iff {faults : ServiceFaults} (hlock : faults.lock = true)
    (hstr : faults.topicStr = true) :
    UnregisteredByName faults ctx service ↔
      (SubscribedTo ctx.subs (service.topic bmServiceReqStr) →
        ∀ e ∈ ahead ctx.serviceList service, ¬ service.bytes <+: e.service.bytes) ∧
      (¬ SubscribedTo ctx.subs (service.topic bmServiceReqStr) →
        ¬ Registered ctx.serviceList service) := by
  have hhit : ∀ e : BmServiceListElem Handler, strncmpEq e.service.bytes service.bytes
      service.bytes.length = true ↔ service.bytes <+: e.service.bytes :=
    fun e => strncmpEq_iff_extends e.service.nulFree service.nulFree
  have hself : ∀ e : BmServiceListElem Handler, e.service = service →
      strncmpEq e.service.bytes service.bytes service.bytes.length = true := by
    rintro e rfl
    exact (hhit e).mpr List.prefix_rfl
  rw [← bmUnsubWl_ok_iff, UnregisteredByName]
  simp only [bmServiceUnregister, hlock, hstr, Bool.not_true, Bool.false_eq_true, if_false]
  by_cases hok : (bmUnsubWl ctx.subs (service.topic bmServiceReqStr)
      (some .serviceRequestReceivedCb)).2 = .ok
  · simp only [hok, ne_eq, not_true, if_false, true_imp_iff, false_imp_iff, and_true]
    rw [serviceListRemoveService, eraseP_ahead hself]
    simp only [← hhit, Bool.not_eq_true]
  · simp only [hok, ne_eq, not_false_eq_true, if_true, false_imp_iff, true_imp_iff, true_and]
    rw [eq_comm, List.eraseP_eq_self_iff, Registered]
    simp

/-- A service that is registered is subscribed to its topic, and the others stay subscribed. -/
theorem subscribedTo_bmSubWl {subs : List (BmSub ServiceCallback)} {topic : List UInt8}
    {resource : BmErr}
    (hok : (bmSubWl subs topic (some .serviceRequestReceivedCb) resource).2 = .ok)
    {topic' : List UInt8} (h : topic' = topic ∨ SubscribedTo subs topic') :
    SubscribedTo (bmSubWl subs topic (some .serviceRequestReceivedCb) resource).1 topic' := by
  have hvalid : ValidTopic topic := by
    by_contra hnot
    exact (bmSubWl_refused subs (.inr hnot) resource).2 hok
  have hvalid' : ValidTopic topic' := by
    rcases h with rfl | h
    · exact hvalid
    · exact h.1
  refine ⟨hvalid', ?_⟩
  rcases bmSubWl_cases subs .serviceRequestReceivedCb hvalid resource with
    ⟨hnone, heq⟩ | ⟨sub, hsome, heq⟩
  · rw [heq, getSub, List.find?_append, ← getSub]
    rcases h with rfl | ⟨-, sub', hsome', hmem⟩
    · exact ⟨⟨topic', [.serviceRequestReceivedCb]⟩, by simp [hnone], List.mem_singleton_self _⟩
    · exact ⟨sub', by simp [hsome'], hmem⟩
  · rw [heq, getSub_updateSub (addCallback_topic _)]
    have hadd : ∀ s : BmSub ServiceCallback, ServiceCallback.serviceRequestReceivedCb ∈
        (s.addCallback .serviceRequestReceivedCb).callbacks := by
      intro s
      unfold BmSub.addCallback
      split
      · rename_i hhead
        exact List.mem_of_head? hhead
      · simp
    split
    · exact ⟨_, by rw [hsome]; rfl, hadd sub⟩
    · rename_i hne
      exact (h.resolve_left hne).2

/-- Every service is subscribed to its topic. -/
def AllSubscribed (ctx : BmServiceContext Handler) : Prop :=
  ∀ e ∈ ctx.serviceList, SubscribedTo ctx.subs (e.service.topic bmServiceReqStr)

theorem AllSubscribed.register (h : AllSubscribed ctx) {faults : ServiceFaults}
    {serviceHandler : Handler}
    (hok : (bmServiceRegister faults ctx service serviceHandler).2 = true) :
    AllSubscribed (bmServiceRegister faults ctx service serviceHandler).1 := by
  unfold bmServiceRegister at hok ⊢
  split_ifs at hok ⊢
  dsimp only at hok ⊢
  intro e he
  refine subscribedTo_bmSubWl (by simpa using hok) ?_
  rcases List.mem_append.mp he with he | he
  · exact .inr (h e he)
  · rw [List.mem_singleton.mp he]
    exact .inl rfl

end Calls

/-- A call of `bm_service_register`. -/
structure RegisterCall (Handler : Type) where
  faults : ServiceFaults
  service : ServiceName
  serviceHandler : Handler

def registerStep (ctx : BmServiceContext Handler) (call : RegisterCall Handler) :
    BmServiceContext Handler :=
  (bmServiceRegister call.faults ctx call.service call.serviceHandler).1

/-- In every registry a request reaches the service of its name exactly if the callback is called
for the topic and no service ahead has a name that begins the topic with the data. A service is
unregistered by its name exactly if it is subscribed and no service ahead begins with its name, or
if it is neither subscribed nor registered. Registrations that succeed leave all services
subscribed. -/
theorem service_by_name_iff (ctx : BmServiceContext Handler) (service : ServiceName) :
    (∀ nodeId id data message, data.length ≤ maxBmServiceDataSize →
      bmPubWl (service.bytes ++ bmServiceReqStr) (requestBytes id data) 0 bmCommonPubSubVersion =
        .ok message →
      (DispatchedByName ctx nodeId service id data message ↔
        (Registered ctx.serviceList service →
          CalledFor ctx.subs (service.bytes ++ bmServiceReqStr) ∧
          ∀ e ∈ ahead ctx.serviceList service,
            ¬ e.service.bytes <+: service.bytes ++ bmServiceReqStr ++ requestBytes id data))) ∧
    (∀ faults : ServiceFaults, faults.lock = true → faults.topicStr = true →
      (UnregisteredByName faults ctx service ↔
        (SubscribedTo ctx.subs (service.topic bmServiceReqStr) →
          ∀ e ∈ ahead ctx.serviceList service, ¬ service.bytes <+: e.service.bytes) ∧
        (¬ SubscribedTo ctx.subs (service.topic bmServiceReqStr) →
          ¬ Registered ctx.serviceList service))) ∧
    ∀ calls : List (RegisterCall Handler),
      Along registerStep (fun ctx call =>
        (bmServiceRegister call.faults ctx call.service call.serviceHandler).2 = true) ⟨[], []⟩
          calls →
      AllSubscribed (calls.foldl registerStep ⟨[], []⟩) := by
  refine ⟨fun nodeId id data message hdata hmessage => dispatchedByName_iff hdata hmessage,
    fun faults hlock hstr => unregisteredByName_iff hlock hstr, fun calls hcalls => ?_⟩
  have hempty : AllSubscribed (⟨[], []⟩ : BmServiceContext Handler) := by
    simp [AllSubscribed]
  exact foldl_invariant (fun ctx call h hok => h.register hok) hempty hcalls

/-- The names `a` and `a/b`. -/
def nameA : ServiceName := ⟨[0x61], by decide⟩
def nameAB : ServiceName := ⟨[0x61, 0x2F, 0x62], by decide⟩

/-- Two services are registered, in this order. -/
def registered (first second : ServiceName) : BmServiceContext Nat :=
  [⟨noFaults, first, 1⟩, ⟨noFaults, second, 2⟩].foldl registerStep ⟨[], []⟩

/-- The request for `a/b` with id 5 and no data. -/
def messageAB : List UInt8 :=
  [0, 0, 7, 0, 2, 0x61, 0x2F, 0x62, 0x2F, 0x72, 0x65, 0x71, 5, 0, 0, 0, 0, 0, 0, 0]

/-- With the longer name first, the request reaches it, and it is unregistered. -/
theorem service_by_name_longer_first :
    DispatchedByName (registered nameAB nameA) 9 nameAB 5 [] messageAB ∧
    UnregisteredByName noFaults (registered nameAB nameA) nameAB := by
  have hiff := service_by_name_iff (registered nameAB nameA) nameAB
  have hahead : ahead (registered nameAB nameA).serviceList nameAB = [] := by decide +kernel
  have hsub : SubscribedTo (registered nameAB nameA).subs (nameAB.topic bmServiceReqStr) :=
    ⟨⟨by decide +kernel, by decide +kernel⟩, ⟨_, rfl, by decide +kernel⟩⟩
  refine ⟨(hiff.1 9 5 [] messageAB (by decide) rfl).mpr fun _ => ⟨?_, ?_⟩,
    (hiff.2.1 noFaults rfl rfl).mpr ⟨fun _ => ?_, fun h => absurd hsub h⟩⟩
  · exact ⟨⟨nameAB.topic bmServiceReqStr, [.serviceRequestReceivedCb]⟩, by decide +kernel,
      by decide +kernel, by decide⟩
  · simp [hahead]
  · simp [hahead]

/-- With `a` first, the request for `a/b` reaches no service. With `a/b` first, it is removed in
place of `a`. -/
theorem service_not_by_name :
    ¬ DispatchedByName (registered nameA nameAB) 9 nameAB 5 [] messageAB ∧
    (∀ call ∈ bmHandleMsg (registered nameA nameAB).subs 9 messageAB messageAB.length,
      serviceRequestReceivedCb (registered nameA nameAB).serviceList call.2 = none) ∧
    ¬ UnregisteredByName noFaults (registered nameAB nameA) nameA ∧
    (bmServiceUnregister noFaults (registered nameAB nameA) nameA).1.serviceList =
      [⟨nameA, 2⟩] := by
  have hnone : ∀ call ∈ bmHandleMsg (registered nameA nameAB).subs 9 messageAB messageAB.length,
      serviceRequestReceivedCb (registered nameA nameAB).serviceList call.2 = none := by
    decide +kernel
  refine ⟨fun h => ?_, hnone, ?_, by decide +kernel⟩
  · obtain ⟨call, hcall, -, e, -, he⟩ := h ⟨⟨nameAB, 2⟩, by decide +kernel, rfl⟩
    simp [hnone call hcall] at he
  · unfold UnregisteredByName
    decide +kernel

end Service

end BmCore.Middleware
