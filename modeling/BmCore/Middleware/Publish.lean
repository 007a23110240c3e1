import BmCore.Library.Accesses
import BmCore.Middleware.Applications
import BmCore.Middleware.PubSub

/-!
# Publishing

`bm_pub_wl` with the buffers it fills. The sizes of header, topic and data are added in 16 bits, and
`bm_middleware_net_tx` only sees the reduced sum. A message that some subscription of the node
matches is built a second time for the queue of the middleware.
-/
namespace BmCore.Middleware
open Library BmCore.Network

/-- `resource_port` -/
def resourcePort : UInt16 := 4321

/-- The callbacks of applications: that of pub/sub, and others. -/
inductive RxCb where
  | bmHandleMsg
  | other (id : Nat)
  deriving DecidableEq

/-- `bm_pubsub_init` -/
def bmPubsubInit (r : Registry RxCb) (bindMemory itemMemory : Bool) : Registry RxCb × BmErr :=
  bmMiddlewareAddApplication r
    ⟨resourcePort, multicastGlobalAddr, .bmHandleMsg, bindMemory, itemMemory⟩

/-- The arguments of `bm_pub_wl`; `data` may be NULL. -/
structure Publication where
  topic : List UInt8
  data : Option (List UInt8)
  len : UInt16
  type : UInt8
  version : UInt8
  length_eq : ∀ d ∈ data, d.length = len.toNat

/-- `message_size`, a `uint16_t` -/
def Publication.messageSize (pub : Publication) : UInt16 :=
  .ofNat (5 + pub.topic.length + pub.len.toNat)

/-- `memcpy` of `len` bytes of `data`, which has no result if there is something to copy from
NULL. -/
def Publication.copied (pub : Publication) : Option (List UInt8) :=
  if pub.len = 0 then some [] else pub.data

/-- What `bm_pub_wl` meets: memory for its two buffers and what is in it and behind it, the node id
in the address of the node, and the result of `bm_udp_tx_perform`. -/
structure Publisher where
  memory : Bool
  localMemory : Bool
  fresh : Nat → UInt8
  localFresh : Nat → UInt8
  beyond : Nat → UInt8
  nodeId : UInt64
  tx : BmErr

/-- A buffer, and the offsets of the accesses that have filled it. -/
structure Filled where
  bytes : List UInt8
  offsets : List Nat

/-- No access was outside. -/
def Filled.InBounds (b : Filled) : Prop := ∀ off ∈ b.offsets, off < b.bytes.length

/-- `bm_udp_new`, and what is done with the payload. -/
def fill (fresh beyond : Nat → UInt8) (size : UInt16) (stores : Access UInt8 Unit) : Filled :=
  let payload := (List.range size.toNat).map fresh
  ⟨(stores.run beyond payload).2, stores.offsets beyond payload⟩

/-- Header, topic and data; the length of the topic is read back from the header. -/
def storeMessage (topic data : List UInt8) (type version : UInt8) : Access UInt8 Unit := do
  Access.writeRange 0 [0, 0, .ofNat topic.length, type, version]
  Access.writeRange 5 topic
  let topicLen ← Access.readAt 2
  Access.writeRange (5 + topicLen.toNat) data

/-- What `bm_pub_wl` returns and leaves: the message for `bm_middleware_net_tx`, if it comes so
far, and if it is given to `bm_udp_tx_perform`. -/
structure Published where
  err : BmErr
  registry : Registry RxCb
  message : Option Filled
  transmitted : Bool

section Publish
variable {Callback : Type} (env : Publisher)

/-- `publish_data_locally` -/
def Publisher.publishDataLocally (r : Registry RxCb) (buf : List UInt8) (size : UInt16) :
    Registry RxCb :=
  (bmMiddlewareRx r ⟨resourcePort, buf, env.nodeId, size.toNat⟩).1

/-- `bm_middleware_net_tx` up to `bm_udp_tx_perform` -/
def Publisher.netTx (r : Registry RxCb) (size : UInt16) : BmErr × Bool :=
  match r.application resourcePort with
  | none => (.enodev, false)
  | some _ => if size.toNat ≤ maxPayloadLenUdp then (env.tx, true) else (.einval, false)

/-- The copy for the own node, if its buffer is allocated. -/
def Publisher.copyLocally (r : Registry RxCb) (pub : Publication) : Option (Registry RxCb) :=
  if env.localMemory then
    pub.copied.map fun data =>
      let copy := fill env.localFresh env.beyond pub.messageSize
        (storeMessage pub.topic data pub.type pub.version)
      env.publishDataLocally r copy.bytes pub.messageSize
  else some r

/-- `bm_pub_wl` up to the resource table -/
def Publisher.bmPubWl (r : Registry RxCb) (subs : List (BmSub Callback)) (pub : Publication) :
    Option Published :=
  if pub.topic.length = 0 then some ⟨.einval, r, none, false⟩
  else if pub.topic.length ≥ bmTopicMaxLen then some ⟨.emsgsize, r, none, false⟩
  else
    if !env.memory then some ⟨.enomem, r, none, false⟩
    else do
      -- `data && len`
      let message := fill env.fresh env.beyond pub.messageSize
        (storeMessage pub.topic (pub.data.getD []) pub.type pub.version)
      let r ← if (getSub subs pub.topic true).isSome then env.copyLocally r pub else some r
      let (err, transmitted) := env.netTx r pub.messageSize
      some ⟨err, r, some message, transmitted⟩

end Publish

/-! ## Messages -/

/-- Header, topic and data. -/
def messageBytes (topic data : List UInt8) (type version : UInt8) : List UInt8 :=
  [0, 0, UInt8.ofNat topic.length, type, version] ++ topic ++ data

section Messages
variable {topic data : List UInt8} {type version : UInt8} {fresh beyond : Nat → UInt8}
  {size : UInt16}

theorem length_messageBytes :
    (messageBytes topic data type version).length = 5 + topic.length + data.length := by
  simp only [messageBytes, List.length_append, List.length_cons, List.length_nil]

theorem toNat_topicLen (h : ValidTopic topic) :
    (UInt8.ofNat topic.length).toNat = topic.length := by
  have hlt := h.2
  rw [bmTopicMaxLen] at hlt
  rw [UInt8.toNat_ofNat', Nat.mod_eq_of_lt (by omega)]

/-- The buffer behind the stores of header and topic. -/
theorem getElem?_storeTopic {buf stored : List UInt8} {i : Nat} (hi : i < buf.length)
    (hstored : ((Access.writeRange 5 topic).run beyond ((Access.writeRange 0
      [0, 0, UInt8.ofNat topic.length, type, version]).run beyond buf).2).2 = stored) :
    stored[i]? = if 5 ≤ i ∧ i < 5 + topic.length then topic[i - 5]?
      else if i < 5 then [0, 0, UInt8.ofNat topic.length, type, version][i]? else buf[i]? := by
  rw [← hstored, Access.getElem?_run_writeRange _ _ _ (by rwa [Access.length_run]),
    Access.getElem?_run_writeRange _ _ _ hi]
  simp

/-- The length of the topic is read back, where the buffer has it. -/
theorem getD_storeTopic {buf stored : List UInt8} (hlength : 2 < buf.length)
    (hstored : ((Access.writeRange 5 topic).run beyond ((Access.writeRange 0
      [0, 0, UInt8.ofNat topic.length, type, version]).run beyond buf).2).2 = stored) :
    stored.getD 2 (beyond 2) = UInt8.ofNat topic.length := by
  rw [List.getD_eq_getElem?_getD, getElem?_storeTopic hlength hstored, if_neg (by omega)]
  rfl

/-- A cell of the buffer behind all stores; what does not fit goes astray. -/
theorem getElem?_storeMessage (h : ValidTopic topic) {buf : List UInt8} {i : Nat}
    (hi : i < buf.length) : ((storeMessage topic data type version).run beyond buf).2[i]? =
      if i < 5 + topic.length + data.length then (messageBytes topic data type version)[i]?
      else buf[i]? := by
  rw [storeMessage, Access.run_bind, Access.run_bind, Access.run_bind, Access.run_readAt]
  generalize hstored : ((Access.writeRange 5 topic).run beyond ((Access.writeRange 0
    [0, 0, UInt8.ofNat topic.length, type, version]).run beyond buf).2).2 = stored
  have hlength : stored.length = buf.length := by
    rw [← hstored, Access.length_run, Access.length_run]
  rw [Access.getElem?_run_writeRange _ _ _ (by omega), getElem?_storeTopic hi hstored, messageBytes,
    List.append_assoc]
  rcases Nat.lt_or_ge i 5 with hlow | hhigh
  · rw [if_neg (by omega), if_neg (by omega), if_pos hlow, if_pos (by omega),
      List.getElem?_append_left (by simpa using hlow)]
  · rw [getD_storeTopic (by omega) hstored, toNat_topicLen h,
      List.getElem?_append_right (by simpa using hhigh)]
    grind

/-- In a buffer with room for the message nothing is stored outside. -/
theorem within_storeMessage (h : ValidTopic topic) {buf : List UInt8}
    (hroom : 5 + topic.length + data.length ≤ buf.length) :
    (storeMessage topic data type version).Within beyond buf := by
  rw [storeMessage]
  refine Access.within_bind.mpr ⟨Access.within_writeRange (by simp; omega), ?_⟩
  refine Access.within_bind.mpr ⟨Access.within_writeRange (by rw [Access.length_run]; omega), ?_⟩
  generalize hstored : ((Access.writeRange 5 topic).run beyond ((Access.writeRange 0
    [0, 0, UInt8.ofNat topic.length, type, version]).run beyond buf).2).2 = stored
  have hlength : stored.length = buf.length := by
    rw [← hstored, Access.length_run, Access.length_run]
  refine Access.within_bind.mpr ⟨Access.within_readAt.mpr (by omega), ?_⟩
  dsimp only [Access.run_readAt]
  rw [getD_storeTopic (by omega) hstored, toNat_topicLen h]
  exact Access.within_writeRange (by omega)

/-- What a buffer holds that is not longer than the message. -/
theorem fill_bytes (h : ValidTopic topic)
    (hsize : size.toNat ≤ 5 + topic.length + data.length) :
    (fill fresh beyond size (storeMessage topic data type version)).bytes =
      (messageBytes topic data type version).take size.toNat := by
  have hlength : ((List.range size.toNat).map fresh).length = size.toNat := by simp
  refine List.ext_getElem? fun i => ?_
  rcases Nat.lt_or_ge i size.toNat with hlt | hge
  · rw [fill, getElem?_storeMessage h (by omega), if_pos (by omega), List.getElem?_take_of_lt hlt]
  · rw [List.getElem?_eq_none (by rw [fill, Access.length_run, hlength]; exact hge),
      List.getElem?_eq_none (by rw [List.length_take]; omega)]

/-- In a buffer with room for the message nothing is stored outside. -/
theorem fill_inBounds (h : ValidTopic topic)
    (hsize : size.toNat = 5 + topic.length + data.length) :
    (fill fresh beyond size (storeMessage topic data type version)).InBounds := by
  have hroom : ((List.range size.toNat).map fresh).length = size.toNat := by simp
  intro off hoff
  rw [fill, Access.length_run]
  exact within_storeMessage h (by omega) off hoff

end Messages

/-! ## The round trip -/

/-- What `bm_pub_wl` transmits, if it returns `BmOK`: header, topic and data, with no store outside
the buffer, and each callback that matches is given the topic and the data. -/
def PublishLaw (Callback : Type) (pub : Publication) : Prop :=
  ∀ (env : Publisher) (r : Registry RxCb) (subs : List (BmSub Callback)) (out : Published),
    env.bmPubWl r subs pub = some out → out.err = .ok →
    ∃ message, out.message = some message ∧ out.transmitted = true ∧
      message.bytes = messageBytes pub.topic (pub.data.getD []) pub.type pub.version ∧
      message.InBounds ∧
      ∀ (receivers : List (BmSub Callback)) (nodeId : UInt64),
        bmHandleMsg receivers nodeId message.bytes message.bytes.length =
          ((pairsOf receivers).filter fun pair => bmWildcardMatch pub.topic pair.1).map fun pair =>
            (pair.2, ⟨nodeId, pub.topic, pub.data.getD [], pub.type, pub.version⟩)

section RoundTrip
variable {Callback : Type} {env : Publisher} {r : Registry RxCb} {subs : List (BmSub Callback)}
  {pub : Publication} {out : Published}

theorem validTopic_iff (topic : List UInt8) :
    ValidTopic topic ↔ ¬ topic.length = 0 ∧ ¬ topic.length ≥ bmTopicMaxLen := by
  rw [ValidTopic, Nat.not_le]

/-- The data that is there has its length. -/
theorem Publication.length_getD (hdata : pub.data.isSome ∨ pub.len = 0) :
    (pub.data.getD []).length = pub.len.toNat := by
  cases hd : pub.data with
  | none =>
    have hlen : pub.len = 0 := by simpa [hd] using hdata
    simp [hlen]
  | some d => exact pub.length_eq d hd

theorem netTx_ok (h : (env.netTx r pub.messageSize).1 = .ok) :
    (env.netTx r pub.messageSize).2 = true := by
  unfold Publisher.netTx at h ⊢
  split at h
  · simp at h
  · split at h
    · rename_i hsize
      simp [hsize]
    · simp at h

/-- Where it returns `BmOK`, the message was built and transmitted. -/
theorem bmPubWl_ok (h : env.bmPubWl r subs pub = some out) (hok : out.err = .ok) :
    ValidTopic pub.topic ∧ out.transmitted = true ∧
      out.message = some (fill env.fresh env.beyond pub.messageSize
        (storeMessage pub.topic (pub.data.getD []) pub.type pub.version)) := by
  unfold Publisher.bmPubWl at h
  split_ifs at h with hzero hlong hmemory
  · obtain rfl := Option.some.inj h
    simp at hok
  · obtain rfl := Option.some.inj h
    simp at hok
  · obtain rfl := Option.some.inj h
    simp at hok
  all_goals
    simp only [Option.bind_eq_bind, Option.bind_eq_some_iff] at h
    obtain ⟨r', -, h⟩ := h
    obtain rfl := Option.some.inj h
    exact ⟨(validTopic_iff _).mpr ⟨hzero, hlong⟩, netTx_ok hok, rfl⟩

/-- With a topic that is not refused and memory for the message. -/
theorem bmPubWl_valid (h : ValidTopic pub.topic) (hmemory : env.memory = true) :
    env.bmPubWl r subs pub =
      (if (getSub subs pub.topic true).isSome then env.copyLocally r pub else some r).map fun r' =>
        ⟨(env.netTx r' pub.messageSize).1, r', some (fill env.fresh env.beyond pub.messageSize
          (storeMessage pub.topic (pub.data.getD []) pub.type pub.version)),
          (env.netTx r' pub.messageSize).2⟩ := by
  obtain ⟨hzero, hlong⟩ := (validTopic_iff _).mp h
  rw [Publisher.bmPubWl, if_neg hzero, if_neg hlong, hmemory, if_neg (by simp)]
  split
  · cases env.copyLocally r pub <;> rfl
  · rfl

theorem bmPubWl_messageBytes {topic : List UInt8} (h : ValidTopic topic) (data : List UInt8)
    (type version : UInt8) : bmPubWl topic data type version =
      .ok ((messageBytes topic data type version).take
        ((5 + topic.length + data.length) % 2 ^ 16)) := by
  obtain ⟨hzero, hlong⟩ := (validTopic_iff topic).mp h
  rw [bmPubWl, if_neg hzero, if_neg hlong]
  rfl

/-- The buffer holds the message of the sizes that were added, reduced or not. -/
theorem fill_eq_bmPubWl (h : ValidTopic pub.topic) (hdata : pub.data.isSome ∨ pub.len = 0)
    (fresh beyond : Nat → UInt8) :
    bmPubWl pub.topic (pub.data.getD []) pub.type pub.version =
      .ok (fill fresh beyond pub.messageSize
        (storeMessage pub.topic (pub.data.getD []) pub.type pub.version)).bytes := by
  have hlen := pub.length_getD hdata
  rw [bmPubWl_messageBytes h, fill_bytes h, Publication.messageSize, UInt16.toNat_ofNat', hlen]
  rw [Publication.messageSize, UInt16.toNat_ofNat', hlen]
  exact Nat.mod_le _ _

theorem toNat_messageSize (hfits : 5 + pub.topic.length + pub.len.toNat < 2 ^ 16) :
    pub.messageSize.toNat = 5 + pub.topic.length + pub.len.toNat := by
  rw [Publication.messageSize, UInt16.toNat_ofNat', Nat.mod_eq_of_lt hfits]

/-- A message that fits in 16 bits. -/
theorem fill_of_fits (h : ValidTopic pub.topic) (hdata : pub.data.isSome ∨ pub.len = 0)
    (hfits : 5 + pub.topic.length + pub.len.toNat < 2 ^ 16) (fresh beyond : Nat → UInt8) :
    (fill fresh beyond pub.messageSize (storeMessage pub.topic (pub.data.getD []) pub.type
      pub.version)).bytes = messageBytes pub.topic (pub.data.getD []) pub.type pub.version := by
  have hlen := pub.length_getD hdata
  have hsize := toNat_messageSize hfits
  rw [fill_bytes h (by omega), List.take_of_length_le (by rw [length_messageBytes]; omega)]

/-- It is received as it was published. -/
theorem ofBuf_messageBytes (h : ValidTopic pub.topic) (hdata : pub.data.isSome ∨ pub.len = 0)
    (hfits : 5 + pub.topic.length + pub.len.toNat < 2 ^ 16) (nodeId : UInt64) {message : List UInt8}
    (hmessage : message = messageBytes pub.topic (pub.data.getD []) pub.type pub.version) :
    Delivery.ofBuf nodeId message message.length =
      ⟨nodeId, pub.topic, pub.data.getD [], pub.type, pub.version⟩ := by
  have hlen := pub.length_getD hdata
  refine ofBuf_bmPubWl ?_ (by omega) nodeId
  rw [bmPubWl_messageBytes h, Nat.mod_eq_of_lt (by omega), hmessage,
    List.take_of_length_le (by rw [length_messageBytes])]

/-- A node on which only pub/sub is registered. -/
def pubsubOnly : Registry RxCb := (bmPubsubInit {} true true).1

/-- A publisher that lacks nothing. -/
def ampleMemory : Publisher := ⟨true, true, fun _ => 0, fun _ => 0, fun _ => 0, 7, .ok⟩

/-- A message whose sizes do not fit in 16 bits is transmitted with a reduced size. -/
theorem bmPubWl_reduced (h : ValidTopic pub.topic)
    (hfits : 2 ^ 16 ≤ 5 + pub.topic.length + pub.len.toNat) :
    ampleMemory.bmPubWl pubsubOnly ([] : List (BmSub Callback)) pub =
      some ⟨.ok, pubsubOnly, some (fill (fun _ => 0) (fun _ => 0) pub.messageSize
        (storeMessage pub.topic (pub.data.getD []) pub.type pub.version)), true⟩ := by
  have hsize : pub.messageSize.toNat ≤ maxPayloadLenUdp := by
    have hlen := pub.len.toNat_lt
    have hlong := h.2
    rw [bmTopicMaxLen] at hlong
    rw [Publication.messageSize, UInt16.toNat_ofNat', maxPayloadLenUdp, udpHdrLen]
    omega
  have hnetTx : ampleMemory.netTx pubsubOnly pub.messageSize = (.ok, true) := by
    rw [Publisher.netTx, show pubsubOnly.application resourcePort = some ⟨resourcePort,
      resourcePort, .bmHandleMsg, multicastGlobalAddr⟩ from rfl]
    exact if_pos hsize
  rw [bmPubWl_valid h rfl, getSub, List.find?_nil, Option.isSome_none, if_neg Bool.false_ne_true,
    Option.map_some, hnetTx]
  rfl

end RoundTrip

/-- A message that is published without an error is transmitted and received as it was published,
exactly if its topic is refused, or the sizes of header, topic and data fit in 16 bits. -/
theorem publish_round_trip_iff (Callback : Type) (pub : Publication)
    (hdata : pub.data.isSome ∨ pub.len = 0) : PublishLaw Callback pub ↔
      ¬ ValidTopic pub.topic ∨ 5 + pub.topic.length + pub.len.toNat < 2 ^ 16 := by
  constructor
  · intro hlaw
    by_contra hnot
    obtain ⟨hvalid, hfits⟩ := not_or.mp hnot
    have hvalid := not_not.mp hvalid
    have hfits := Nat.not_lt.mp hfits
    obtain ⟨message, hmessage, -, hbytes, -⟩ := hlaw ampleMemory pubsubOnly [] _
      (bmPubWl_reduced hvalid hfits) rfl
    obtain rfl := Option.some.inj hmessage
    have hlength := congrArg List.length hbytes
    rw [length_messageBytes, pub.length_getD hdata, fill, Access.length_run, List.length_map,
      List.length_range] at hlength
    have := pub.messageSize.toNat_lt
    omega
  · rintro hcond env r subs out hout hok
    obtain ⟨hvalid, htransmitted, hmessage⟩ := bmPubWl_ok hout hok
    have hfits := hcond.resolve_left (not_not.mpr hvalid)
    have hbytes := fill_of_fits hvalid hdata hfits env.fresh env.beyond
    refine ⟨_, hmessage, htransmitted, hbytes, fill_inBounds hvalid ?_, fun receivers nodeId => ?_⟩
    · rw [pub.length_getD hdata, toNat_messageSize hfits]
    · rw [bmHandleMsg_eq, ofBuf_messageBytes hvalid hdata hfits nodeId hbytes]

/-- One byte on the topic `a`. -/
def oneByte : Publication := ⟨[0x61], some [5], 1, 0, 2, by simp⟩

theorem publish_round_trip_oneByte : PublishLaw Nat oneByte :=
  (publish_round_trip_iff Nat oneByte (.inl rfl)).mpr (.inr (by decide))

/-- 65535 bytes on the topic `a`: with the header these are 65541 bytes, and five in 16 bits. -/
def longest : Publication where
  topic := [0x61]
  data := some (List.replicate 65535 0)
  len := 65535
  type := 0
  version := 2
  length_eq := by
    intro d hd
    obtain rfl := Option.mem_some.mp hd
    exact List.length_replicate

/-- Five bytes are transmitted. -/
theorem longest_cut : ¬ PublishLaw Nat longest ∧ longest.messageSize = 5 := by
  refine ⟨fun hlaw => ?_, by decide⟩
  rcases (publish_round_trip_iff Nat longest (.inl rfl)).mp hlaw with hrefused | hfits
  · exact hrefused ⟨by decide, by decide⟩
  · exact absurd hfits (by decide)

/-! ## The own node -/

/-- The same call with another sender. -/
def Delivery.sentBy (nodeId : UInt64) (d : Delivery) : Delivery := { d with nodeId }

/-- A copy of a message that is built is queued exactly if `bm_handle_msg` would find a subscription
for it, and so call something if no subscription is without callbacks; it is the same message, and
its callbacks are called as another node with the same subscriptions calls them. -/
def AgreesLocally {Callback : Type} (env : Publisher) (r : Registry RxCb)
    (subs : List (BmSub Callback)) (out : Published) : Prop :=
  match out.message with
  | none => out.registry = r
  | some message => ∃ copies : List NetQueueItem,
    out.registry = { r with netQueue := r.netQueue ++ copies } ∧ copies.length ≤ 1 ∧
    (copies ≠ [] ↔ ∃ sub ∈ subs, bmWildcardMatch
      (Delivery.ofBuf env.nodeId message.bytes message.bytes.length).topic sub.topic = true) ∧
    ((∀ sub ∈ subs, sub.callbacks ≠ []) → (copies ≠ [] ↔
      bmHandleMsg subs env.nodeId message.bytes message.bytes.length ≠ [])) ∧
    ∀ copy ∈ copies, copy.port = resourcePort ∧ copy.nodeId = env.nodeId ∧
      copy.buf = message.bytes ∧ copy.size = message.bytes.length ∧
      ∀ sender, bmHandleMsg subs copy.nodeId copy.buf copy.size =
        (bmHandleMsg subs sender message.bytes message.bytes.length).map fun call =>
          (call.1, call.2.sentBy copy.nodeId)

section OwnNode
variable {Callback : Type} {env : Publisher} {r : Registry RxCb} {subs : List (BmSub Callback)}
  {pub : Publication}

/-- The sender plays no part in what is called. -/
theorem bmHandleMsg_sentBy (subs : List (BmSub Callback)) (nodeId sender : UInt64)
    (buf : List UInt8) (size : Nat) : bmHandleMsg subs nodeId buf size =
      (bmHandleMsg subs sender buf size).map fun call => (call.1, call.2.sentBy nodeId) := by
  rw [bmHandleMsg_eq, bmHandleMsg_eq, List.map_map]
  rfl

/-- Where every subscription has a callback, a message calls something exactly if a subscription
matches it. -/
theorem bmHandleMsg_ne_nil_iff (hcallbacks : ∀ sub ∈ subs, sub.callbacks ≠ []) (nodeId : UInt64)
    (buf : List UInt8) (size : Nat) : bmHandleMsg subs nodeId buf size ≠ [] ↔
      ∃ sub ∈ subs, bmWildcardMatch (Delivery.ofBuf nodeId buf size).topic sub.topic = true := by
  rw [bmHandleMsg, ne_eq, List.flatMap_eq_nil_iff, not_forall]
  refine exists_congr fun sub => ?_
  rw [Classical.not_imp]
  refine and_congr_right fun hsub => ?_
  cases hmatch : bmWildcardMatch (Delivery.ofBuf nodeId buf size).topic sub.topic with
  | true => simp [hcallbacks sub hsub]
  | false => simp

theorem getSub_isSome_iff (subs : List (BmSub Callback)) (topic : List UInt8) :
    (getSub subs topic true).isSome = true ↔
      ∃ sub ∈ subs, bmWildcardMatch topic sub.topic = true := by
  simp [getSub]

/-- The copy is queued, and it is what is given to `bm_middleware_net_tx`. -/
theorem copyLocally_eq (h : ValidTopic pub.topic) (hdata : pub.data.isSome ∨ pub.len = 0)
    (hfits : 5 + pub.topic.length + pub.len.toNat < 2 ^ 16) (hlocal : env.localMemory = true)
    (hqueue : r.netQueue.length < netQueueLen) : env.copyLocally r pub =
      some { r with netQueue := r.netQueue ++ [⟨messageBytes pub.topic (pub.data.getD []) pub.type
        pub.version, env.nodeId, pub.messageSize.toNat, resourcePort⟩] } := by
  have hcopied : pub.copied = some (pub.data.getD []) := by
    unfold Publication.copied
    split
    · rename_i hlen
      have hnil := pub.length_getD hdata
      rw [hlen] at hnil
      rw [List.eq_nil_of_length_eq_zero hnil]
    · rename_i hlen
      obtain ⟨d, hd⟩ := Option.isSome_iff_exists.mp (hdata.resolve_right hlen)
      rw [hd, Option.getD_some]
  rw [Publisher.copyLocally, if_pos hlocal, hcopied]
  simp only [Option.map_some, Publisher.publishDataLocally, bmMiddlewareRx, if_pos hqueue,
    fill_of_fits h hdata hfits]

end OwnNode

/-- With memory and room in the queue, a message that fits in 16 bits reaches the callbacks of its
own node as it reaches those of another node. -/
theorem published_locally_as_transmitted {Callback : Type} (env : Publisher)
    (hmemory : env.memory = true) (hlocal : env.localMemory = true) (r : Registry RxCb)
    (hqueue : r.netQueue.length < netQueueLen) (subs : List (BmSub Callback)) (pub : Publication)
    (hdata : pub.data.isSome ∨ pub.len = 0)
    (hfits : 5 + pub.topic.length + pub.len.toNat < 2 ^ 16) :
    ∃ out, env.bmPubWl r subs pub = some out ∧
      (out.message.isSome = true ↔ ValidTopic pub.topic) ∧ AgreesLocally env r subs out := by
  by_cases hvalid : ValidTopic pub.topic
  · have hbytes := fill_of_fits hvalid hdata hfits env.fresh env.beyond
    have hsize : pub.messageSize.toNat =
        (messageBytes pub.topic (pub.data.getD []) pub.type pub.version).length := by
      rw [length_messageBytes, pub.length_getD hdata, toNat_messageSize hfits]
    have htopic := ofBuf_messageBytes hvalid hdata hfits env.nodeId hbytes
    rw [bmPubWl_valid hvalid hmemory]
    cases hmatch : (getSub subs pub.topic true).isSome with
    | true =>
      rw [if_pos rfl, copyLocally_eq hvalid hdata hfits hlocal hqueue]
      have hfound := (getSub_isSome_iff subs pub.topic).mp hmatch
      refine ⟨_, rfl, iff_of_true rfl hvalid, _, rfl, Nat.le_refl 1, ?_, fun hcallbacks => ?_,
        fun copy hcopy => ?_⟩
      · rw [htopic]
        exact iff_of_true (List.cons_ne_nil _ _) hfound
      · rw [bmHandleMsg_ne_nil_iff hcallbacks, htopic]
        exact iff_of_true (List.cons_ne_nil _ _) hfound
      · obtain rfl := List.mem_singleton.mp hcopy
        rw [hbytes]
        exact ⟨rfl, rfl, rfl, hsize, fun sender => by rw [hsize]; exact bmHandleMsg_sentBy ..⟩
    | false =>
      rw [if_neg Bool.false_ne_true]
      have hnone : ¬∃ sub ∈ subs, bmWildcardMatch pub.topic sub.topic = true := fun h =>
        absurd ((getSub_isSome_iff subs pub.topic).mpr h) (by simp [hmatch])
      refine ⟨_, rfl, iff_of_true rfl hvalid, [], by simp, Nat.zero_le 1, ?_, fun hcallbacks => ?_,
        by simp⟩
      · rw [htopic]
        exact iff_of_false (fun h => h rfl) hnone
      · rw [bmHandleMsg_ne_nil_iff hcallbacks, htopic]
        exact iff_of_false (fun h => h rfl) hnone
  · -- nothing is built for a topic that is refused
    have hrefused : pub.topic.length = 0 ∨ pub.topic.length ≥ bmTopicMaxLen := by
      rw [validTopic_iff] at hvalid
      tauto
    by_cases hzero : pub.topic.length = 0
    · exact ⟨_, if_pos hzero, iff_of_false (by simp) hvalid, rfl⟩
    · have hlong := hrefused.resolve_left hzero
      refine ⟨⟨.emsgsize, r, none, false⟩, ?_, iff_of_false (by simp) hvalid, rfl⟩
      rw [Publisher.bmPubWl, if_neg hzero, if_pos hlong]

/-- A message for the pattern `*`. -/
theorem published_locally_star : ∃ out, ampleMemory.bmPubWl pubsubOnly
    [(⟨[0x2A], [1, 2]⟩ : BmSub Nat)] oneByte = some out ∧
      (out.message.isSome = true ↔ ValidTopic oneByte.topic) ∧
      AgreesLocally ampleMemory pubsubOnly [⟨[0x2A], [1, 2]⟩] out :=
  published_locally_as_transmitted ampleMemory rfl rfl pubsubOnly (by decide) _ oneByte (.inl rfl)
    (by decide)

end BmCore.Middleware
