import BmCore.Middleware.Service
import BmCore.Middleware.SubscriptionMemory

/-!
# Failed registrations

`bm_service_register` with the subscriptions in memory. It links the element of the service, and
only then allocates the topic `<name>/req` and subscribes to it. Where one of these fails it returns
`false`, and the element stays in the list of services: a service that was registered before under
the same name, or a subscription that matches the topic, brings it requests, and a later element of
the name is hidden behind it.
-/
namespace BmCore.Middleware
open Library

/-- `BM_SERVICE_CONTEXT`, with the subscriptions of the node in memory. -/
structure ServiceMemory (Handler : Type) where
  serviceList : List (BmServiceListElem Handler)
  subs : PubSubCtx ServiceCallback

/-- What a registration meets: whether the lock is taken, whether the element and the topic are
allocated, and what the subscription meets. -/
structure RegisterFaults where
  lock : Bool
  elem : Bool
  topicStr : Bool
  memory : SubMemory
  resource : BmErr
  deriving DecidableEq

/-- What the registration meets on the lists, where memory for the subscription is at hand. -/
def RegisterFaults.onLists (faults : RegisterFaults) : ServiceFaults :=
  ⟨faults.lock, faults.elem, faults.topicStr, faults.resource⟩

/-- The subscription to a topic, on a list of subscriptions, ends with `BmOK`. -/
def CanSubscribe (subs : List (BmSub ServiceCallback)) (topic : List UInt8) (memory : SubMemory)
    (resource : BmErr) : Prop :=
  ValidTopic topic ∧ (resource = .ok ∨ resource = .eagain) ∧
  match getSub subs topic false with
  | some sub => sub.callbacks.head? = some .serviceRequestReceivedCb ∨ memory.callback = true
  | none => memory = ⟨true, true, true⟩

namespace ServiceMemory
variable {Handler : Type} (reg : ServiceMemory Handler)

/-- `_service_list_add_service` -/
def serviceListAddService (elem : BmServiceListElem Handler) : ServiceMemory Handler :=
  { reg with serviceList := reg.serviceList ++ [elem] }

/-- `_service_sub_unsub_to_req_topic` with `sub` -/
def serviceSubToReqTopic (faults : RegisterFaults) (service : ServiceName) :
    Option (ServiceMemory Handler × Bool) :=
  if !faults.topicStr then some (reg, false)
  else
    (reg.subs.bmSubWl (service.topic bmServiceReqStr) (some .serviceRequestReceivedCb)
      faults.memory faults.resource).map fun (subs, err) => ({ reg with subs }, err == .ok)

/-- `bm_service_register`; a name or a handler that is NULL is `none`. -/
def bmServiceRegister (faults : RegisterFaults) (service : Option ServiceName)
    (serviceHandler : Option Handler) : Option (ServiceMemory Handler × Bool) :=
  match service, serviceHandler with
  | some service, some serviceHandler =>
    if !faults.lock then some (reg, false)
    else if !faults.elem then some (reg, false)
    else (reg.serviceListAddService ⟨service, serviceHandler⟩).serviceSubToReqTopic faults service
  | _, _ => some (reg, false)

/-- The handlers that a message reaches: `bm_handle_msg` calls `_service_request_received_cb`. -/
def dispatched (nodeId : UInt64) (buf : List UInt8) (size : Nat) :
    Option (List (Dispatch Handler)) :=
  (reg.subs.bmHandleMsg nodeId buf size).map fun calls =>
    calls.filterMap fun (callback, msg) =>
      if callback = .serviceRequestReceivedCb then serviceRequestReceivedCb reg.serviceList msg
      else none

/-- A registration that returns `false` leaves nothing behind: the services are the ones before, a
message reaches the handlers it reached before, and a later registration of the name goes as it went
without the failed one. -/
def FailedRegisterLaw (faults : RegisterFaults) (service : Option ServiceName)
    (serviceHandler : Option Handler) : Prop :=
  ∀ reg', reg.bmServiceRegister faults service serviceHandler = some (reg', false) →
    reg'.serviceList = reg.serviceList ∧
    (∀ nodeId buf size, reg'.dispatched nodeId buf size = reg.dispatched nodeId buf size) ∧
    ∀ laterFaults laterHandler, reg'.bmServiceRegister laterFaults service laterHandler =
      reg.bmServiceRegister laterFaults service laterHandler

/-- The registration fails before the element is linked, or not at all. -/
def RegistersWhole (subs : List (BmSub ServiceCallback)) (faults : RegisterFaults)
    (service : Option ServiceName) (serviceHandler : Option Handler) : Prop :=
  ∀ name, service = some name → serviceHandler ≠ none → faults.lock = true → faults.elem = true →
    faults.topicStr = true ∧
      CanSubscribe subs (name.topic bmServiceReqStr) faults.memory faults.resource

section Registration
variable {reg : ServiceMemory Handler} {subs : List (BmSub ServiceCallback)}
  {faults : RegisterFaults}

theorem SubMemory.eq_all_iff (memory : SubMemory) : memory = ⟨true, true, true⟩ ↔
    memory.node = true ∧ memory.topic = true ∧ memory.callback = true := by
  cases memory
  simp

theorem afterResource_eq_ok (resource : BmErr) :
    PubSubCtx.afterResource resource .ok = .ok ↔ resource = .ok ∨ resource = .eagain := by
  cases resource <;> decide

/-- On an intact list `bm_sub_wl` ends, with `BmOK` exactly if the subscription is possible. -/
theorem bmSubWl_ok_iff {ctx : PubSubCtx ServiceCallback} (h : PubSubCtx.Intact ctx subs)
    (topic : List UInt8) (memory : SubMemory) (resource : BmErr) :
    ∃ ctx' err, ctx.bmSubWl topic (some .serviceRequestReceivedCb) memory resource =
      some (ctx', err) ∧ (err = .ok ↔ CanSubscribe subs topic memory resource) := by
  by_cases hvalid : ValidTopic topic
  · obtain ⟨ctx', err, heq, hsubscribed⟩ :=
      PubSubCtx.bmSubWl_subscribed h hvalid .serviceRequestReceivedCb memory resource
    refine ⟨ctx', err, heq, ?_⟩
    rw [CanSubscribe, and_iff_right hvalid]
    cases hsubscribed with
    | again sub hget hhead => simp [hget, hhead, afterResource_eq_ok]
    | noCallback sub hget hhead hmemory => simp [hget, hhead, hmemory]
    | added sub hget hhead hmemory => simp [hget, hmemory, afterResource_eq_ok]
    | noNode hget hmemory => simp [hget, SubMemory.eq_all_iff, hmemory]
    | noTopic hget hnode hmemory => simp [hget, SubMemory.eq_all_iff, hmemory]
    | noFirst hget hnode htopic hmemory => simp [hget, SubMemory.eq_all_iff, hmemory]
    | new hget hnode htopic hmemory =>
      simp [hget, SubMemory.eq_all_iff, hnode, htopic, hmemory, afterResource_eq_ok]
  · have hrefused : some ServiceCallback.serviceRequestReceivedCb = none ∨ ¬ ValidTopic topic :=
      .inr hvalid
    obtain ⟨err, heq, -, herr⟩ := PubSubCtx.bmSubWl_refused ctx hrefused memory resource
    exact ⟨ctx, err, heq, iff_of_false herr fun hcan => hvalid hcan.1⟩

/-- Once the lock is taken and the element allocated, the element is linked, whatever happens then;
the result is `true` exactly if the request topic can be subscribed to. -/
theorem bmServiceRegister_linked (h : PubSubCtx.Intact reg.subs subs) (hlock : faults.lock = true)
    (helem : faults.elem = true) (service : ServiceName) (serviceHandler : Handler) :
    ∃ reg' ok, reg.bmServiceRegister faults (some service) (some serviceHandler) =
      some (reg', ok) ∧ reg'.serviceList = reg.serviceList ++ [⟨service, serviceHandler⟩] ∧
        (ok = true ↔ faults.topicStr = true ∧
          CanSubscribe subs (service.topic bmServiceReqStr) faults.memory faults.resource) := by
  simp only [bmServiceRegister, hlock, helem, Bool.not_true, Bool.false_eq_true, if_false,
    serviceSubToReqTopic]
  cases htopicStr : faults.topicStr with
  | false => exact ⟨_, false, rfl, rfl, by simp⟩
  | true =>
    obtain ⟨ctx, err, heq, hok⟩ := bmSubWl_ok_iff h (service.topic bmServiceReqStr)
      faults.memory faults.resource
    refine ⟨⟨reg.serviceList ++ [⟨service, serviceHandler⟩], ctx⟩, err == .ok, ?_, rfl, ?_⟩
    · simp only [serviceListAddService, heq, Bool.not_true, Bool.false_eq_true, if_false,
        Option.map_some]
    · simpa using hok

/-- Before the element is linked, a failed registration changes nothing. -/
theorem bmServiceRegister_early {service : Option ServiceName} {serviceHandler : Option Handler}
    (h : service = none ∨ serviceHandler = none ∨ faults.lock = false ∨ faults.elem = false) :
    reg.bmServiceRegister faults service serviceHandler = some (reg, false) := by
  cases service with
  | none => rfl
  | some service =>
    cases serviceHandler with
    | none => rfl
    | some serviceHandler =>
      cases hlock : faults.lock with
      | false => simp [bmServiceRegister, hlock]
      | true =>
        have helem : faults.elem = false := by simpa [hlock] using h
        simp [bmServiceRegister, hlock, helem]

theorem failedRegisterLaw_same {service : Option ServiceName} {serviceHandler : Option Handler}
    (h : reg.bmServiceRegister faults service serviceHandler = some (reg, false)) :
    reg.FailedRegisterLaw faults service serviceHandler := by
  intro reg' hfail
  obtain ⟨rfl, -⟩ := Prod.mk.inj (Option.some.inj (h.symm.trans hfail))
  exact ⟨rfl, fun _ _ _ => rfl, fun _ _ => rfl⟩

/-- With memory for all that the subscription allocates, a registration is the one on the lists. -/
theorem bmServiceRegister_intact (h : PubSubCtx.Intact reg.subs subs)
    (hmemory : faults.memory = ⟨true, true, true⟩) (service : ServiceName)
    (serviceHandler : Handler) :
    ∃ reg', reg.bmServiceRegister faults (some service) (some serviceHandler) = some (reg',
        (Middleware.bmServiceRegister faults.onLists ⟨reg.serviceList, subs⟩ service
          serviceHandler).2) ∧
      reg'.serviceList = (Middleware.bmServiceRegister faults.onLists ⟨reg.serviceList, subs⟩
        service serviceHandler).1.serviceList ∧
      PubSubCtx.Intact reg'.subs (Middleware.bmServiceRegister faults.onLists
        ⟨reg.serviceList, subs⟩ service serviceHandler).1.subs := by
  simp only [RegisterFaults.onLists]
  cases hlock : faults.lock with
  | false => exact ⟨reg, bmServiceRegister_early (.inr (.inr (.inl hlock))), rfl, h⟩
  | true =>
    cases helem : faults.elem with
    | false => exact ⟨reg, bmServiceRegister_early (.inr (.inr (.inr helem))), rfl, h⟩
    | true =>
      simp only [bmServiceRegister, hlock, helem, Bool.not_true, Bool.false_eq_true, if_false,
        serviceSubToReqTopic]
      cases htopicStr : faults.topicStr with
      | false => exact ⟨_, rfl, rfl, h⟩
      | true =>
        obtain ⟨ctx, heq, hintact⟩ := PubSubCtx.bmSubWl_intact h (service.topic bmServiceReqStr)
          (some .serviceRequestReceivedCb) faults.resource
        refine ⟨⟨reg.serviceList ++ [⟨service, serviceHandler⟩], ctx⟩, ?_, rfl, hintact⟩
        simp only [serviceListAddService, hmemory, heq, Bool.not_true, Bool.false_eq_true, if_false,
          Option.map_some]
        rfl

/-- A message reaches the handlers that it reaches with the subscriptions on the list. -/
theorem dispatched_intact (h : PubSubCtx.Intact reg.subs subs) (nodeId : UInt64) (buf : List UInt8)
    (size : Nat) : reg.dispatched nodeId buf size =
      some ((bmHandleMsg subs nodeId buf size).filterMap fun (callback, msg) =>
        if callback = .serviceRequestReceivedCb then serviceRequestReceivedCb reg.serviceList msg
        else none) := by
  rw [dispatched, PubSubCtx.bmHandleMsg_holds h.holds, Option.map_some]

end Registration

/-- A failed registration leaves nothing behind exactly if it failed before the element was
linked. -/
theorem failed_register_atomic_iff (reg : ServiceMemory Handler)
    (subs : List (BmSub ServiceCallback)) (h : PubSubCtx.Intact reg.subs subs)
    (faults : RegisterFaults) (service : Option ServiceName) (serviceHandler : Option Handler) :
    reg.FailedRegisterLaw faults service serviceHandler ↔
      RegistersWhole subs faults service serviceHandler := by
  by_cases hearly : service = none ∨ serviceHandler = none ∨ faults.lock = false ∨
      faults.elem = false
  · refine iff_of_true (failedRegisterLaw_same (bmServiceRegister_early hearly)) ?_
    rintro name rfl hhandler hlock helem
    simp [hhandler, hlock, helem] at hearly
  · simp only [not_or, Bool.not_eq_false] at hearly
    obtain ⟨hservice, hhandler, hlock, helem⟩ := hearly
    obtain ⟨service, rfl⟩ := Option.ne_none_iff_exists'.mp hservice
    obtain ⟨serviceHandler, rfl⟩ := Option.ne_none_iff_exists'.mp hhandler
    obtain ⟨reg', ok, heq, hlist, hok⟩ :=
      bmServiceRegister_linked h hlock helem service serviceHandler
    have hwhole : RegistersWhole subs faults (some service) (some serviceHandler) ↔ ok = true := by
      rw [hok]
      constructor
      · intro hwhole
        exact hwhole service rfl hhandler hlock helem
      · rintro hcan name hname - - -
        obtain rfl := Option.some.inj hname
        exact hcan
    rw [hwhole, FailedRegisterLaw, heq]
    constructor
    · intro hlaw
      by_contra hfalse
      obtain rfl : ok = false := by simpa using hfalse
      -- the element is one too many
      have hsame := (hlaw reg' rfl).1
      rw [hlist] at hsame
      simp at hsame
    · rintro rfl reg'' hfail
      cases hfail

/-- No service is registered. -/
def bare : ServiceMemory Nat := ⟨[], PubSubCtx.empty⟩

/-- The request for `a` with id 5 and no data. -/
def messageA : List UInt8 := [0, 0, 5, 0, 2, 0x61, 0x2F, 0x72, 0x65, 0x71, 5, 0, 0, 0, 0, 0, 0, 0]

/-- The element of a second service cannot be allocated. -/
theorem failed_register_atomic_noElem : ∃ reg : ServiceMemory Nat,
    bare.bmServiceRegister ⟨true, true, true, ⟨true, true, true⟩, .ok⟩ (some nameA) (some 1) =
      some (reg, true) ∧ reg.serviceList = [⟨nameA, 1⟩] ∧
      reg.FailedRegisterLaw ⟨true, false, true, ⟨true, true, true⟩, .ok⟩ (some nameAB)
        (some 2) := by
  obtain ⟨subs, hsub, hintact⟩ := PubSubCtx.bmSubWl_intact PubSubCtx.intact_empty
    (nameA.topic bmServiceReqStr) (some ServiceCallback.serviceRequestReceivedCb) .ok
  have hregister : bare.bmServiceRegister ⟨true, true, true, ⟨true, true, true⟩, .ok⟩ (some nameA)
      (some 1) = some (⟨[⟨nameA, 1⟩], subs⟩, true) := by
    simp only [bmServiceRegister, serviceListAddService, serviceSubToReqTopic, bare, hsub,
      Bool.not_true, Bool.false_eq_true, if_false, Option.map_some]
    rfl
  refine ⟨_, hregister, rfl, ?_⟩
  exact (failed_register_atomic_iff ⟨[⟨nameA, 1⟩], subs⟩ _ hintact
    ⟨true, false, true, ⟨true, true, true⟩, .ok⟩ (some nameAB) (some 2)).mpr
    fun _ _ _ _ helem => absurd helem (by decide)

/-- Where the topic cannot be allocated, a later registration of the name succeeds, and its requests
reach the handler of the failed one. Where the resource table is full, the requests reach the
handler of the failed registration at once. -/
theorem failed_register_not_atomic :
    ¬ bare.FailedRegisterLaw ⟨true, true, false, ⟨true, true, true⟩, .ok⟩ (some nameA) (some 1) ∧
    (do
      let first ← bare.bmServiceRegister ⟨true, true, false, ⟨true, true, true⟩, .ok⟩ (some nameA)
        (some 1)
      let second ← first.1.bmServiceRegister ⟨true, true, true, ⟨true, true, true⟩, .ok⟩
        (some nameA) (some 2)
      let calls ← second.1.dispatched 9 messageA messageA.length
      some (first.2, second.2, calls.map (·.elem.serviceHandler))) = some (false, true, [1]) ∧
    (do
      let first ← bare.bmServiceRegister ⟨true, true, true, ⟨true, true, true⟩, .enomem⟩
        (some nameA) (some 1)
      let calls ← first.1.dispatched 9 messageA messageA.length
      some (first.2, calls.map (·.elem.serviceHandler))) = some (false, [1]) := by
  refine ⟨fun hlaw => ?_, by decide +kernel, by decide +kernel⟩
  have hwhole := (failed_register_atomic_iff bare [] PubSubCtx.intact_empty
    ⟨true, true, false, ⟨true, true, true⟩, .ok⟩ (some nameA) (some 1)).mp hlaw
  exact absurd (hwhole nameA rfl (by simp) rfl rfl).1 (by decide)

end ServiceMemory
end BmCore.Middleware
