import BmCore.Bcmp.Packet

/-!
# Serializing and receiving a message

A packet that `serialize` has written passes the checksum test of `process_received_message` and is
delivered with its type, payload, size and sequence number. A packet with another checksum is
dropped before anything else is looked at.
-/
namespace BmCore.Bcmp
open Library LL

variable {Handler Callback : Type}

/-! ## The header -/

section Header
variable (type checksum : UInt16) (seqNum : UInt32) (rest : List UInt8)

@[simp] theorem header_length : (header type checksum seqNum).length = bcmpHeaderSize := by
  simp [header, bcmpHeaderSize]

theorem headerType_header : headerType (header type checksum seqNum ++ rest) = type := by
  have hfield : fieldAt (header type checksum seqNum ++ rest) 0 2 = leNat (leBytes 2 type.toNat) :=
    rfl
  rw [headerType, hfield, leNat_leBytes type.toNat_lt, UInt16.ofNat_toNat]

theorem headerChecksum_header :
    headerChecksum (header type checksum seqNum ++ rest) = checksum := by
  have hfield : fieldAt (header type checksum seqNum ++ rest) 2 2 =
      leNat (leBytes 2 checksum.toNat) := rfl
  rw [headerChecksum, hfield, leNat_leBytes checksum.toNat_lt, UInt16.ofNat_toNat]

theorem headerSeqNum_header : headerSeqNum (header type checksum seqNum ++ rest) = seqNum := by
  have hfield : fieldAt (header type checksum seqNum ++ rest) 6 4 =
      leNat (leBytes 4 seqNum.toNat) := rfl
  rw [headerSeqNum, hfield, leNat_leBytes seqNum.toNat_lt, UInt32.ofNat_toNat]

theorem setChecksum_header (c : UInt16) : setChecksum (header type checksum seqNum ++ rest) c =
    header type c seqNum ++ rest := rfl

/-- The checksum is in bytes 2 and 3. -/
theorem window_setChecksum (data : List UInt8) (c : UInt16) {off len : Nat}
    (h : off + len ≤ 2 ∨ 4 ≤ off) :
    ((setChecksum data c).drop off).take len = (data.drop off).take len := by
  refine List.ext_getElem? fun i => ?_
  simp only [setChecksum, List.getElem?_take, List.getElem?_drop, List.getElem?_set]
  split
  · have h₂ : 2 ≠ off + i := by omega
    have h₃ : 3 ≠ off + i := by omega
    rw [if_neg h₃, if_neg h₂]
  · rfl

@[simp] theorem length_setChecksum (data : List UInt8) (c : UInt16) :
    (setChecksum data c).length = data.length := by
  simp [setChecksum]

@[simp] theorem headerType_setChecksum (data : List UInt8) (c : UInt16) :
    headerType (setChecksum data c) = headerType data := by
  unfold headerType fieldAt
  rw [window_setChecksum _ _ (.inl (by omega))]

@[simp] theorem headerSeqNum_setChecksum (data : List UInt8) (c : UInt16) :
    headerSeqNum (setChecksum data c) = headerSeqNum data := by
  unfold headerSeqNum fieldAt
  rw [window_setChecksum _ _ (.inr (by omega))]

theorem drop_setChecksum (data : List UInt8) (c : UInt16) :
    (setChecksum data c).drop bcmpHeaderSize = data.drop bcmpHeaderSize := by
  refine List.ext_getElem? fun i => ?_
  have h₂ : 2 ≠ bcmpHeaderSize + i := by unfold bcmpHeaderSize; omega
  have h₃ : 3 ≠ bcmpHeaderSize + i := by unfold bcmpHeaderSize; omega
  simp only [setChecksum, List.getElem?_drop, List.getElem?_set, if_neg h₂, if_neg h₃]

/-- The fields of a packet are in its first bytes. -/
theorem fieldAt_take (data : List UInt8) {n off len : Nat} (h : off + len ≤ n) :
    fieldAt (data.take n) off len = fieldAt data off len := by
  unfold fieldAt
  rw [List.drop_take, List.take_take, Nat.min_eq_left (by omega)]

end Header

/-- A source address without ingress port and legacy ports. -/
structure CleanSrc (src : List UInt8) : Prop where
  ingress : (src.getD 2 0).toNat < 16
  legacy : src.getD 4 0 = 0 ∧ src.getD 5 0 = 0

theorem clearPorts_clean {src : List UInt8} (h : CleanSrc src) : clearPorts src = src := by
  have hnibble : src.getD 2 0 &&& 0xF = src.getD 2 0 := by
    rw [← UInt8.toNat_inj, UInt8.toNat_and]
    have hmod := Nat.and_two_pow_sub_one_eq_mod (src.getD 2 0).toNat 4
    have hlt := h.ingress
    simp only [Nat.reducePow, Nat.add_one_sub_one] at hmod
    rw [show (0xF : UInt8).toNat = 15 from rfl, hmod]
    omega
  have h₄ : src.set 4 0 = src := by
    rw [← h.legacy.1]
    exact set_getD_self src 4 0
  have h₅ : src.set 5 0 = src := by
    rw [← h.legacy.2]
    exact set_getD_self src 5 0
  unfold clearPorts
  rw [hnibble, h₄, h₅]
  exact set_getD_self src 2 0

/-! ## Receiving what was sent -/

section Delivery
variable (cfg : BcmpPacketCfg Handler) (takenFind takenTake : Bool)
  (items : List (UInt32 × BcmpRequestElement Callback))

/-- The pending request that a message with number `seqNum` is the reply to. -/
def repliedTo (seqNum : UInt32) : Option (BcmpRequestElement Callback) :=
  if cfg.sequencedReply && !cfg.sequencedRequest && takenFind && takenTake then
    (items.find? (·.1 == seqNum)).map Prod.snd
  else none

/-- How a message reaches the code it is for: the callback of the request it replies to, or else
the handler of its type. The request no longer waits afterwards. -/
structure Delivers (p p' : PacketInfo Handler Callback) (data : BcmpProcessData)
    (call : Option (Call Handler Callback)) : Prop where
  callback : ∀ e cb, repliedTo cfg takenFind takenTake items data.seqNum = some e →
    e.cb = some cb → call = some (.reply cb data.payload)
  handler : (∀ e, repliedTo cfg takenFind takenTake items data.seqNum = some e → e.cb = none) →
    call = cfg.process.map (.process · data)
  removed : ∀ e, repliedTo cfg takenFind takenTake items data.seqNum = some e →
    ∃ sequenceList es, p' = { p with sequenceList } ∧ Walkable sequenceList es ∧
      es.map payload = items.eraseP (·.1 == data.seqNum)
  kept : repliedTo cfg takenFind takenTake items data.seqNum = none → p' = p

variable {cfg takenFind takenTake items}

/-- A message that no pending request waits for goes to the handler. -/
theorem delivers_handler {p : PacketInfo Handler Callback} {data : BcmpProcessData}
    (h : repliedTo cfg takenFind takenTake items data.seqNum = none) :
    Delivers cfg takenFind takenTake items p p data (deliver cfg none data) where
  callback := by simp [h]
  handler _ := rfl
  removed := by simp [h]
  kept _ := rfl

variable (takenFind takenTake) in
/-- A message of a registered type is delivered to the pending request it replies to, or to the
handler of its type. -/
theorem dispatch_delivers {p : PacketInfo Handler Callback} {data : BcmpProcessData}
    {es : List (Entry (BcmpRequestElement Callback))}
    (hcfg : p.packetList.getItem data.type.toUInt32 = some (some cfg))
    (h : cfg.isReply = true → Linked p.sequenceList es) :
    ∃ p' call, dispatch p takenFind takenTake data = some (p', .ok, call) ∧
      Delivers cfg takenFind takenTake (es.map payload) p p' data call := by
  unfold dispatch sequenceListFindMessage
  rw [hcfg]
  cases hreply : cfg.isReply with
  | false =>
    have hnone : repliedTo cfg takenFind takenTake (es.map payload) data.seqNum = none := by
      unfold BcmpPacketCfg.isReply at hreply
      simp [repliedTo, hreply]
    exact ⟨p, _, by simp [hreply], delivers_handler hnone⟩
  | true =>
    have hlinked := h hreply
    have hflags : (cfg.sequencedReply && !cfg.sequencedRequest) = true := hreply
    cases takenFind with
    | false => exact ⟨p, _, by simp, delivers_handler (by simp [repliedTo])⟩
    | true =>
      rcases split_at_id es data.seqNum with hnone | ⟨pre, e, post, rfl, hpre, he⟩
      · have hfind : (es.map payload).find? (·.1 == data.seqNum) = none := by
          simpa [payload] using hnone
        exact ⟨p, _, by simp [getPtr_absent hlinked.walkable hnone],
          delivers_handler (by simp [repliedTo, hfind])⟩
      have hpre' : ∀ b ∈ pre.map payload, ¬ (b.1 == data.seqNum) = true := by
        intro b hb
        obtain ⟨f, hf, rfl⟩ := List.mem_map.mp hb
        simpa [payload] using hpre f hf
      have hfind : ((pre ++ e :: post).map payload).find? (·.1 == data.seqNum) =
          some (payload e) := by
        rw [List.map_append, List.find?_append, List.find?_eq_none.mpr hpre']
        simp [payload, he]
      have hptr := getPtr_found hlinked.walkable hpre he
      cases takenTake with
      | false =>
        exact ⟨p, _, by simp [hptr, takeMessage], delivers_handler (by simp [repliedTo])⟩
      | true =>
        obtain ⟨ll, es', hremove, -, hwalk, hview, -⟩ :=
          remove_found_walkable hlinked.walkable hpre he
        have hread := hlinked.lookup (e := e) (by simp)
        have hwaits : repliedTo cfg true true ((pre ++ e :: post).map payload) data.seqNum =
            some e.2.data := by
          rw [repliedTo, hflags, hfind]
          rfl
        refine ⟨{ p with sequenceList := ll }, deliver cfg e.2.data.cb data, ?_, ?_, ?_, ?_, ?_⟩
        · simp [hreply, hptr, takeMessage, hread, hremove]
        · intro f cb hf hcb
          obtain rfl := Option.some.inj (hwaits.symm.trans hf)
          rw [hcb]
          rfl
        · intro hnone
          rw [hnone _ hwaits]
          rfl
        · intro f _
          refine ⟨ll, es', rfl, hwalk, ?_⟩
          rw [map_payload_of_view hview, List.map_append, List.map_append,
            List.eraseP_append_right _ hpre', List.map_cons,
            List.eraseP_cons_of_pos (by simp [payload, he])]
        · intro hnone
          rw [hwaits] at hnone
          cases hnone

end Delivery

theorem receive_badmsg {p : PacketInfo Handler Callback} {packet : Packet} {size : Nat}
    (hinit : p.initialized = true)
    (h : p.checksum ⟨clearPorts packet.src, packet.dst, setChecksum packet.data 0⟩
      ((size + bcmpHeaderSize) % 2 ^ 32) ≠ headerChecksum packet.data) :
    receive p packet size = .error .ebadmsg := by
  unfold receive
  rw [if_neg (by simp [hinit])]
  dsimp only
  rw [if_pos h]

/-- What is handed to the handler of a message. -/
theorem receive_ok {p : PacketInfo Handler Callback} {packet : Packet} {size : Nat}
    {data : BcmpProcessData} (h : receive p packet size = .ok data) :
    data.type = headerType packet.data ∧ data.seqNum = headerSeqNum packet.data ∧
      data.payload = packet.data.drop bcmpHeaderSize ∧ data.size = size ∧
      data.header.length = min bcmpHeaderSize packet.data.length := by
  unfold receive at h
  split at h
  · exact absurd h (by simp)
  dsimp only at h
  split at h
  · exact absurd h (by simp)
  obtain rfl := Except.ok.inj h
  refine ⟨?_, ?_, ?_, rfl, by simp⟩
  · rw [BcmpProcessData.type, headerType, fieldAt_take _ (by simp [bcmpHeaderSize])]
    change headerType (setChecksum (setChecksum packet.data 0) _) = _
    simp
  · rw [BcmpProcessData.seqNum, headerSeqNum, fieldAt_take _ (by simp [bcmpHeaderSize])]
    change headerSeqNum (setChecksum (setChecksum packet.data 0) _) = _
    simp
  · dsimp only
    rw [drop_setChecksum, drop_setChecksum]

/-- The checksum over the packet with its checksum field 0 passes the test. -/
theorem receive_header {p : PacketInfo Handler Callback} (hinit : p.initialized = true)
    {src : List UInt8} (hsrc : CleanSrc src) (dst rest : List UInt8) (type : UInt16)
    (seqNum : UInt32) (size : Nat) {c : UInt16}
    (hc : p.checksum ⟨src, dst, header type 0 seqNum ++ rest⟩ ((size + bcmpHeaderSize) % 2 ^ 32) =
      c) :
    receive p ⟨src, dst, header type c seqNum ++ rest⟩ size = .ok ⟨header type c seqNum, rest,
      size, src, dst, (src.getD 2 0 >>> 4) &&& 0xF⟩ := by
  unfold receive
  rw [if_neg (by simp [hinit])]
  dsimp only
  rw [clearPorts_clean hsrc, setChecksum_header, headerChecksum_header, if_neg (by simpa using hc),
    setChecksum_header, List.take_left' (header_length _ _ _),
    List.drop_left' (header_length _ _ _)]

section Numbering
variable (p p' : PacketInfo Handler Callback) (cfg : BcmpPacketCfg Handler)
  (items : List (UInt32 × BcmpRequestElement Callback))

/-- The number a message goes out with: the given one in a reply, a fresh one in a request, which
waits under it from then on, and 0 in any other message. -/
structure Numbers (given number : UInt32)
    (waits : List (UInt32 × BcmpRequestElement Callback)) : Prop where
  reply : cfg.sequencedReply = true → number = given ∧ p' = p
  request : cfg.sequencedReply = false → cfg.sequencedRequest = true → number = p.messageCount ∧
    ∃ sequenceList es,
      p' = { p with messageCount := p.messageCount + 1, sequenceList } ∧
      Linked sequenceList es ∧ es.map payload = items ++ waits
  other : cfg.sequencedReply = false → cfg.sequencedRequest = false → number = 0 ∧ p' = p

end Numbering

/-- The pending entry of a request: there is none when the semaphore is not taken or the item not
allocated. -/
def pendingEntry (taken : Bool) (node : Option Nat) (number : UInt32) (type : UInt16)
    (now : UInt32) (cb : Option Callback) : List (UInt32 × BcmpRequestElement Callback) :=
  if taken && node.isSome then [(number, ⟨type, now, defaultMessageTimeoutMs, number, cb⟩)] else []

/-- A reply leaves the state of the module alone, and a request touches only counter and sequence
list. -/
theorem serializeSequence_numbers {p : PacketInfo Handler Callback}
    {es : List (Entry (BcmpRequestElement Callback))} (h : Linked p.sequenceList es)
    (cfg : BcmpPacketCfg Handler) (taken : Bool) {node : Option Nat}
    (hnode : ∀ n, node = some n → n ∉ p.sequenceList.heap) (now : UInt32) (type : UInt16)
    (seqNum : UInt32) (cb : Option Callback) :
    ∃ p', serializeSequence p cfg taken node now type cb = some p' ∧ p'.checksum = p.checksum ∧
      p'.initialized = p.initialized ∧ p'.packetList = p.packetList ∧
      Numbers p p' cfg (es.map payload) seqNum (serializeSeqNum p cfg seqNum)
        (pendingEntry taken node p.messageCount type now cb) := by
  unfold serializeSequence serializeSeqNum
  cases hreply : cfg.sequencedReply with
  | true => exact ⟨p, rfl, rfl, rfl, rfl, by simp, by simp [hreply], by simp [hreply]⟩
  | false =>
    cases hrequest : cfg.sequencedRequest with
    | false => exact ⟨p, rfl, rfl, rfl, rfl, by simp [hreply], by simp [hrequest], by simp⟩
    | true =>
      -- the counter moves on whether or not the entry is linked
      have hunlinked : Numbers p { p with messageCount := p.messageCount + 1 } cfg
          (es.map payload) seqNum p.messageCount [] :=
        ⟨by simp [hreply], fun _ _ => ⟨rfl, _, es, rfl, h, by simp⟩, by simp [hrequest]⟩
      rcases taken with _ | _
      · exact ⟨_, rfl, rfl, rfl, rfl, hunlinked⟩
      rcases node with _ | n
      · exact ⟨_, rfl, rfl, rfl, rfl, hunlinked⟩
      obtain ⟨ll', es', hadd, hlinked, hview, -⟩ := itemAdd_linked h (hnode n rfl) p.messageCount
        ⟨type, now, defaultMessageTimeoutMs, p.messageCount, cb⟩
      refine ⟨{ p with messageCount := p.messageCount + 1, sequenceList := ll' }, ?_, rfl, rfl, rfl,
        by simp [hreply], fun _ _ => ⟨rfl, ll', _, rfl, hlinked, ?_⟩, by simp [hrequest]⟩
      · simp [sequenceListAddMessage, hadd]
      · rw [List.map_append, map_payload_of_view hview]
        rfl

/-- `serialize` of `data` succeeds, and the packet it leaves is delivered with the type, size and
payload that were sent and the number that its type asks for. -/
def RoundTrips (p : PacketInfo Handler Callback) (cfg : BcmpPacketCfg Handler)
    (items : List (UInt32 × BcmpRequestElement Callback)) (packet : Packet) (data : List UInt8)
    (type : UInt16) (seqNum : UInt32) (cb : Option Callback) (node : Option Nat) (now : UInt32)
    (taken takenFind takenTake : Bool) : Prop :=
  ∃ p' packet' p'' call delivered,
    serialize p taken node now packet data type seqNum cb = some (p', packet', .ok) ∧
    Numbers p p' cfg items seqNum delivered.seqNum
      (pendingEntry taken node p.messageCount type now cb) ∧
    processReceivedMessage p' takenFind takenTake packet' data.length = some (p'', .ok, call) ∧
    Delivers cfg takenFind takenTake items p' p'' delivered call ∧
    delivered.type = type ∧ delivered.size = data.length ∧
    delivered.payload.take delivered.size = data ∧
    delivered.src = packet.src ∧ delivered.dst = packet.dst

/-- A serialized message is delivered as it was sent; a message with another checksum is dropped
and changes nothing. -/
theorem serialize_roundtrip :
    (∀ (p : PacketInfo Handler Callback) (packet : Packet) (data : List UInt8) (type : UInt16)
      (seqNum : UInt32) (cb : Option Callback) (cfg : BcmpPacketCfg Handler)
      (es : List (Entry (BcmpRequestElement Callback))) (node : Option Nat) (now : UInt32)
      (taken takenFind takenTake : Bool),
      p.initialized = true → p.packetList.getItem type.toUInt32 = some (some cfg) →
      Linked p.sequenceList es → (∀ n, node = some n → n ∉ p.sequenceList.heap) →
      CleanSrc packet.src →
      RoundTrips p cfg (es.map payload) packet data type seqNum cb node now taken takenFind
        takenTake) ∧
    (∀ (p : PacketInfo Handler Callback) (packet : Packet) (size : Nat)
      (takenFind takenTake : Bool), p.initialized = true →
      p.checksum ⟨clearPorts packet.src, packet.dst, setChecksum packet.data 0⟩
        ((size + bcmpHeaderSize) % 2 ^ 32) ≠ headerChecksum packet.data →
      processReceivedMessage p takenFind takenTake packet size = some (p, .ebadmsg, none)) := by
  refine ⟨?_, ?_⟩
  · intro p packet data type seqNum cb cfg es node now taken takenFind takenTake hinit hcfg hlinked
      hnode hsrc
    obtain ⟨p', hseq, hsum, hinit', hlist, hnumbers⟩ :=
      serializeSequence_numbers hlinked cfg taken hnode now type seqNum cb
    generalize hrest : packet.data.drop (bcmpHeaderSize + data.length) = rest
    generalize hnum : serializeSeqNum p cfg seqNum = seq at hnumbers
    generalize hc : p'.checksum ⟨packet.src, packet.dst, header type 0 seq ++ (data ++ rest)⟩
      ((data.length + bcmpHeaderSize) % 2 ^ 32) = c
    have hser : serialize p taken node now packet data type seqNum cb = some (p',
        ⟨packet.src, packet.dst, header type c seq ++ (data ++ rest)⟩, .ok) := by
      unfold serialize
      rw [if_neg (by simp [hinit]), hcfg]
      simp only [Option.bind_eq_bind, Option.bind_some, hseq, hnum, hrest, List.append_assoc, hc,
        setChecksum_header]
    have hrecv := receive_header (hinit'.trans hinit) hsrc packet.dst (data ++ rest) type seq
      data.length hc
    generalize hdelivered : (⟨header type c seq, data ++ rest, data.length, packet.src, packet.dst,
      (packet.src.getD 2 0 >>> 4) &&& 0xF⟩ : BcmpProcessData) = delivered at hrecv
    have htype : delivered.type = type := by
      have hread := headerType_header type c seq []
      rw [List.append_nil] at hread
      rw [← hdelivered]
      exact hread
    have hseqNum : delivered.seqNum = seq := by
      have hread := headerSeqNum_header type c seq []
      rw [List.append_nil] at hread
      rw [← hdelivered]
      exact hread
    have hcfg' : p'.packetList.getItem delivered.type.toUInt32 = some (some cfg) := by
      rw [hlist, htype]
      exact hcfg
    have hreply : cfg.isReply = true → Linked p'.sequenceList es := by
      intro hreply
      rw [BcmpPacketCfg.isReply, Bool.and_eq_true] at hreply
      rw [(hnumbers.reply hreply.1).2]
      exact hlinked
    obtain ⟨p'', call, hdispatch, hdelivers⟩ :=
      dispatch_delivers takenFind takenTake hcfg' hreply
    refine ⟨p', _, p'', call, delivered, hser, ?_, ?_, hdelivers, htype, ?_⟩
    · rw [hseqNum]
      exact hnumbers
    · rw [processReceivedMessage, hrecv]
      exact hdispatch
    · rw [← hdelivered]
      simp
  · intro p packet size takenFind takenTake hinit hne
    rw [processReceivedMessage, receive_badmsg hinit hne]

/-- A module with a type of request, 0xA0, and the type of its replies, 0xA1. Request 6 waits for
its reply, and the checksum is a sum of bytes. -/
def requestAndReply : PacketInfo Unit Unit where
  checksum packet size := .ofNat ((packet.src ++ packet.dst ++ packet.data.take size).map
    UInt8.toNat).sum
  initialized := true
  sequenceList := (LL.empty.itemAdd 3 6 ⟨0xA0, 100, defaultMessageTimeoutMs, 6, some ()⟩).getD
    .empty
  packetList := ((LL.empty.itemAdd 1 0xA0 ⟨false, true, some ()⟩).bind
    (·.itemAdd 2 0xA1 ⟨true, false, some ()⟩)).getD .empty
  messageCount := 7

theorem requestAndReply_linked : Linked requestAndReply.sequenceList
    [(3, ⟨none, none, ⟨0xA0, 100, defaultMessageTimeoutMs, 6, some ()⟩, 6⟩)] := by
  refine ⟨by simp, ⟨rfl, rfl, rfl⟩, rfl, fun a => ?_⟩
  simp [requestAndReply, LL.itemAdd, LL.empty, AList.mem_keys]

theorem serialize_roundtrip_request :
    RoundTrips requestAndReply ⟨false, true, some ()⟩
        [(6, ⟨0xA0, 100, defaultMessageTimeoutMs, 6, some ()⟩)] ⟨List.replicate 16 0, [], []⟩
        [1, 2, 3] 0xA0 0 (some ()) (some 5) 110 true true true ∧
      RoundTrips requestAndReply ⟨true, false, some ()⟩
        [(6, ⟨0xA0, 100, defaultMessageTimeoutMs, 6, some ()⟩)] ⟨List.replicate 16 0, [], []⟩
        [4, 5] 0xA1 6 none none 110 true true true ∧
      processReceivedMessage requestAndReply true true ⟨[], [], header 0xA1 1 6⟩ 0 =
        some (requestAndReply, .ebadmsg, none) := by
  refine ⟨?_, ?_, ?_⟩
  · exact serialize_roundtrip.1 requestAndReply ⟨List.replicate 16 0, [], []⟩ [1, 2, 3] 0xA0 0
      (some ()) ⟨false, true, some ()⟩ _ (some 5) 110 true true true rfl rfl
      requestAndReply_linked (by decide) ⟨by decide, by decide⟩
  · exact serialize_roundtrip.1 requestAndReply ⟨List.replicate 16 0, [], []⟩ [4, 5] 0xA1 6 none
      ⟨true, false, some ()⟩ _ none 110 true true true rfl rfl requestAndReply_linked (by simp)
      ⟨by decide, by decide⟩
  · exact serialize_roundtrip.2 requestAndReply ⟨[], [], header 0xA1 1 6⟩ 0 true true rfl
      (by decide +kernel)

end BmCore.Bcmp
