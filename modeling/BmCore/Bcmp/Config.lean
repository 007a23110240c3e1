import BmCore.Bcmp.RoundTrip

/-!
# Config messages

`bcmp/config.c` on top of the packet module, with the types that `bcmp_init` registers. A config
message names the node it is for and the node it comes from. A node forwards what is for another
one, and answers a request that is for itself with the number of the request cut to 16 bits. What
the handlers find in the config store is left open: `answer` is what they put behind the header of
their reply, if they send one.
-/
namespace BmCore.Bcmp
open Library LL

/-! ## Messages and their registration -/

/-- The config messages of `BcmpMessageType`. -/
inductive ConfigMessage where
  | get
  | value
  | set
  | commit
  | statusRequest
  | statusResponse
  | deleteRequest
  | deleteResponse
  | clearRequest
  | clearResponse
  deriving DecidableEq

namespace ConfigMessage

def type : ConfigMessage → UInt16
  | get => 0xA0
  | value => 0xA1
  | set => 0xA2
  | commit => 0xA3
  | statusRequest => 0xA4
  | statusResponse => 0xA5
  | deleteRequest => 0xA6
  | deleteResponse => 0xA7
  | clearRequest => 0xA8
  | clearResponse => 0xA9

/-- In the order in which `bcmp_config_init` adds them. -/
def all : List ConfigMessage :=
  [get, set, commit, statusRequest, statusResponse, deleteRequest, deleteResponse, clearRequest,
    clearResponse, value]

def ofType (type : UInt16) : Option ConfigMessage := all.find? (·.type == type)

/-- The message that the handler of a request sends. -/
def reply : ConfigMessage → Option ConfigMessage
  | get => some value
  | set => some value
  | statusRequest => some statusResponse
  | deleteRequest => some deleteResponse
  | clearRequest => some clearResponse
  | _ => none

def sequencedReply : ConfigMessage → Bool
  | statusResponse | deleteResponse | clearResponse | value => true
  | _ => false

def sequencedRequest : ConfigMessage → Bool
  | get | set | statusRequest | deleteRequest | clearRequest => true
  | _ => false

end ConfigMessage

/-- A message of the second type answers a request of the first. -/
def answers (request reply : UInt16) : Prop :=
  ((ConfigMessage.ofType request).bind ConfigMessage.reply).map ConfigMessage.type = some reply

instance (request reply : UInt16) : Decidable (answers request reply) :=
  inferInstanceAs (Decidable (_ = _))

/-- The handlers that are registered with `packet_add`. -/
inductive Processor where
  | heartbeat
  | pingRequest
  | pingReply
  | time
  | dfu
  | config
  | neighborTableRequest
  | neighborTableReply
  | infoRequest
  | infoReply
  | resourceDiscoveryRequest
  | resourceDiscoveryReply

def unsequenced (processor : Processor) : BcmpPacketCfg Processor := ⟨false, false, some processor⟩

def ConfigMessage.cfg (m : ConfigMessage) : BcmpPacketCfg Processor :=
  ⟨m.sequencedReply, m.sequencedRequest, some .config⟩

/-- The types in the order in which `bcmp_init` adds them. The last type of the DFU is added
twice. -/
def registrations : List (UInt16 × BcmpPacketCfg Processor) :=
  [(0x01, unsequenced .heartbeat), (0x02, unsequenced .pingRequest),
    (0x03, unsequenced .pingReply)] ++
  [0x10, 0x11, 0x12].map (·, unsequenced .time) ++
  [0xD0, 0xD1, 0xD2, 0xD3, 0xD4, 0xD5, 0xD6, 0xD7, 0xD8, 0xD9, 0xD9].map (·, unsequenced .dfu) ++
  ConfigMessage.all.map (fun m => (m.type, m.cfg)) ++
  [(0x08, unsequenced .neighborTableRequest), (0x09, unsequenced .neighborTableReply),
    (0x04, unsequenced .infoRequest), (0x05, unsequenced .infoReply),
    (0x0A, unsequenced .resourceDiscoveryRequest), (0x0B, unsequenced .resourceDiscoveryReply)]

variable {Callback : Type}

/-- The packet module as `packet_init` leaves it. -/
def freshPacketInfo (checksum : Packet → Nat → UInt16) : PacketInfo Processor Callback :=
  ⟨checksum, true, .empty, .empty, 0⟩

/-- The registrations of `bcmp_init`, with the addresses of their items. -/
def bcmpInit (p : PacketInfo Processor Callback) (nodes : List Nat) :
    Option (PacketInfo Processor Callback) :=
  (registrations.zip nodes).foldlM (fun p r => packetAdd p r.2 r.1.2 r.1.1) p

/-- The configuration of a type. -/
def cfgOf (type : UInt16) : Option (BcmpPacketCfg Processor) :=
  (registrations.find? (·.1 == type)).map Prod.snd

section Registered
variable {p : PacketInfo Processor Callback}

theorem packetAdds_linked {es : List (Entry (BcmpPacketCfg Processor))}
    (h : Linked p.packetList es) (rs : List ((UInt16 × BcmpPacketCfg Processor) × Nat))
    (hnodup : (rs.map Prod.snd).Nodup) (hfresh : ∀ r ∈ rs, r.2 ∉ p.packetList.heap) :
    ∃ p' es', rs.foldlM (fun p r => packetAdd p r.2 r.1.2 r.1.1) p = some p' ∧
      Linked p'.packetList es' ∧
      es'.map payload = es.map payload ++ rs.map (fun r => (r.1.1.toUInt32, r.1.2)) ∧
      p'.sequenceList = p.sequenceList ∧ p'.messageCount = p.messageCount := by
  induction rs generalizing p es with
  | nil => exact ⟨p, es, rfl, h, by simp, rfl, rfl⟩
  | cons r rs ih =>
    obtain ⟨hr, hrs⟩ := List.nodup_cons.mp hnodup
    obtain ⟨ll, fs, hadd, hlinked, hview, -⟩ :=
      itemAdd_linked h (hfresh r List.mem_cons_self) r.1.1.toUInt32 r.1.2
    have hfresh' : ∀ r' ∈ rs, r'.2 ∉ ({ p with packetList := ll } :
        PacketInfo Processor Callback).packetList.heap := by
      intro r' hr' hmem
      have hold : r'.2 ∉ es.map Prod.fst := fun hin =>
        hfresh r' (List.mem_cons_of_mem _ hr') ((h.owned _).mpr hin)
      have hin := (hlinked.owned _).mp hmem
      rw [List.map_append, map_fst_of_view hview] at hin
      rcases List.mem_append.mp hin with hin | hin
      · exact hold hin
      · obtain heq : r'.2 = r.2 := by simpa using hin
        exact hr (heq ▸ List.mem_map_of_mem hr')
    obtain ⟨p', es', hfold, hlinked', hes', hseq, hcount⟩ := ih hlinked hrs hfresh'
    refine ⟨p', es', ?_, hlinked', ?_, hseq, hcount⟩
    · rw [List.foldlM_cons]
      simp only [packetAdd, hadd, Option.bind_eq_bind, Option.bind_some]
      exact hfold
    · rw [hes', List.map_append, map_payload_of_view hview]
      simp [payload]

/-- After `bcmp_init` every type is found with its configuration. -/
theorem bcmpInit_registered (hpackets : p.packetList = .empty) {nodes : List Nat}
    (hnodup : nodes.Nodup) (hlength : nodes.length = registrations.length) :
    ∃ p', bcmpInit p nodes = some p' ∧ p'.sequenceList = p.sequenceList ∧
      p'.messageCount = p.messageCount ∧
      ∀ type, p'.packetList.getItem type.toUInt32 = some (cfgOf type) := by
  have hsnd : (registrations.zip nodes).map Prod.snd = nodes :=
    List.map_snd_zip (le_of_eq hlength)
  have hempty : Linked p.packetList [] := hpackets ▸ Linked.empty
  obtain ⟨p', es, hinit, hlinked, hes, hseq, hcount⟩ := packetAdds_linked hempty
    (registrations.zip nodes) (hsnd.symm ▸ hnodup)
    (by simp [hpackets, LL.empty, AList.notMem_empty])
  refine ⟨p', hinit, hseq, hcount, fun type => ?_⟩
  have hfst : (registrations.zip nodes).map (fun r => (r.1.1.toUInt32, r.1.2)) =
      registrations.map (fun r => (r.1.toUInt32, r.2)) := by
    conv_rhs => rw [← List.map_fst_zip (le_of_eq hlength.symm)]
    simp [Function.comp_def]
  rw [List.map_nil, List.nil_append, hfst] at hes
  have hid : ∀ a b : UInt16, (a.toUInt32 == b.toUInt32) = (a == b) := by
    intro a b
    rw [Bool.eq_iff_iff, beq_iff_eq, beq_iff_eq]
    exact ⟨fun h => by simpa using congrArg UInt32.toUInt16 h, fun h => h ▸ rfl⟩
  rw [getItem_find hlinked.walkable, hes, List.find?_map, cfgOf]
  simp only [Function.comp_def, hid]
  cases registrations.find? (·.1 == type) <;> rfl

theorem cfgOf_mem {type : UInt16} {cfg : BcmpPacketCfg Processor} (h : cfgOf type = some cfg) :
    (type, cfg) ∈ registrations := by
  unfold cfgOf at h
  obtain ⟨r, hfind, rfl⟩ := Option.map_eq_some_iff.mp h
  have htype : r.1 = type := by simpa using List.find?_some hfind
  exact htype ▸ List.mem_of_find?_eq_some hfind

/-- A sequenced type is one of the config messages. -/
theorem cfgOf_sequenced {type : UInt16} {cfg : BcmpPacketCfg Processor} (h : cfgOf type = some cfg)
    (hseq : cfg.sequencedReply = true ∨ cfg.sequencedRequest = true) :
    ∃ m, ConfigMessage.ofType type = some m ∧ cfg = m.cfg := by
  have hmem := cfgOf_mem h
  simp only [registrations, List.mem_append, List.mem_map, List.mem_cons, List.not_mem_nil,
    or_false, Prod.mk.injEq] at hmem
  rcases hmem with (((hmem | hmem) | hmem) | ⟨m, hm, rfl, rfl⟩) | hmem
  · rcases hmem with ⟨-, rfl⟩ | ⟨-, rfl⟩ | ⟨-, rfl⟩ <;> simp [unsequenced] at hseq
  · obtain ⟨-, -, -, rfl⟩ := hmem
    simp [unsequenced] at hseq
  · obtain ⟨-, -, -, rfl⟩ := hmem
    simp [unsequenced] at hseq
  · exact ⟨m, by cases m <;> rfl, rfl⟩
  · rcases hmem with ⟨-, rfl⟩ | ⟨-, rfl⟩ | ⟨-, rfl⟩ | ⟨-, rfl⟩ | ⟨-, rfl⟩ | ⟨-, rfl⟩ <;>
      simp [unsequenced] at hseq

theorem cfgOf_config {type : UInt16} {m : ConfigMessage} (h : ConfigMessage.ofType type = some m) :
    cfgOf type = some m.cfg := by
  have htype : m.type = type := by simpa using List.find?_some h
  subst htype
  cases m <;> rfl

end Registered

/-! ## The header of a config message -/

/-- `BmConfigHeader` -/
def configHeader (target source : UInt64) : List UInt8 :=
  leBytes 8 target.toNat ++ leBytes 8 source.toNat

def targetNodeId (payload : List UInt8) : UInt64 := .ofNat (fieldAt payload 0 8)
def sourceNodeId (payload : List UInt8) : UInt64 := .ofNat (fieldAt payload 8 8)

theorem targetNodeId_configHeader (target source : UInt64) (body : List UInt8) :
    targetNodeId (configHeader target source ++ body) = target := by
  have hfield : fieldAt (configHeader target source ++ body) 0 8 =
      leNat (leBytes 8 target.toNat) := rfl
  rw [targetNodeId, hfield, leNat_leBytes target.toNat_lt, UInt64.ofNat_toNat]

theorem sourceNodeId_configHeader (target source : UInt64) (body : List UInt8) :
    sourceNodeId (configHeader target source ++ body) = source := by
  have hfield : fieldAt (configHeader target source ++ body) 8 8 =
      leNat (leBytes 8 source.toNat) := rfl
  rw [sourceNodeId, hfield, leNat_leBytes source.toNat_lt, UInt64.ofNat_toNat]

/-! ## Handling -/

/-- What a handler has the node do. -/
inductive Handling where
  /-- `bcmp_ll_forward` -/
  | forward
  /-- The message is handled here, and maybe answered. -/
  | handle (reply : Option (ConfigMessage × List UInt8 × UInt32))

/-- The reply to a request, as the handlers of `bcmp_process_config_message` send it. -/
def configReply (nodeId : UInt64) (data : BcmpProcessData) (answer : Option (List UInt8)) :
    Option (ConfigMessage × List UInt8 × UInt32) := do
  let m ← ConfigMessage.ofType data.type
  let r ← m.reply
  let body ← answer
  some (r, configHeader (sourceNodeId data.payload) nodeId ++ body,
    data.seqNum.toUInt16.toUInt32)

/-- `bcmp_process_config_message` -/
def bcmpProcessConfigMessage (nodeId : UInt64) (data : BcmpProcessData)
    (answer : Option (List UInt8)) : Handling :=
  if targetNodeId data.payload ≠ nodeId then .forward
  else .handle (configReply nodeId data answer)

/-- `multicast_ll_addr` -/
def multicastLlAddr : List UInt8 := [0xFF, 0x02, 0, 0, 0, 0, 0, 0, 0, 0, 0, 0, 0, 0, 0, 0x01]

/-- A packet of `bcmp_ll_forward`, the same for every port: the received header and payload under
a new checksum. -/
def forwardPacket (checksum : Packet → Nat → UInt16) (addr : List UInt8) (data : BcmpProcessData) :
    Packet :=
  let packet : Packet :=
    ⟨addr, multicastLlAddr, setChecksum data.header 0 ++ data.payload.take data.size⟩
  { packet with
    data := setChecksum packet.data (checksum packet ((data.size + bcmpHeaderSize) % 2 ^ 32)) }

/-- A forwarded packet carries the message that was received. -/
theorem forwardPacket_message (checksum : Packet → Nat → UInt16) (addr : List UInt8)
    {data : BcmpProcessData} (h : data.header.length = bcmpHeaderSize) :
    headerType (forwardPacket checksum addr data).data = data.type ∧
      headerSeqNum (forwardPacket checksum addr data).data = data.seqNum ∧
      (forwardPacket checksum addr data).data.drop bcmpHeaderSize =
        data.payload.take data.size := by
  have hlength : (setChecksum data.header 0).length = bcmpHeaderSize := by
    rw [length_setChecksum, h]
  have hfield : ∀ off len, off + len ≤ bcmpHeaderSize →
      fieldAt (setChecksum data.header 0 ++ data.payload.take data.size) off len =
        fieldAt (setChecksum data.header 0) off len := by
    intro off len hle
    rw [← fieldAt_take _ hle, List.take_left' hlength]
  refine ⟨?_, ?_, ?_⟩
  · rw [forwardPacket, headerType_setChecksum, headerType, hfield _ _ (by simp [bcmpHeaderSize])]
    exact headerType_setChecksum data.header 0
  · rw [forwardPacket, headerSeqNum_setChecksum, headerSeqNum,
      hfield _ _ (by simp [bcmpHeaderSize])]
    exact headerSeqNum_setChecksum data.header 0
  · rw [forwardPacket, drop_setChecksum, List.drop_left' hlength]

/-! ## Sending from a node whose types are registered -/

section Send
variable {p p' : PacketInfo Processor Callback}

/-- Every type is found with its configuration. -/
def Registered (p : PacketInfo Processor Callback) : Prop :=
  ∀ type, p.packetList.getItem type.toUInt32 = some (cfgOf type)

theorem Registered.congr (h : Registered p) (hlist : p'.packetList = p.packetList) :
    Registered p' := by
  intro type
  rw [hlist]
  exact h type

theorem serializeSequence_cases {cfg : BcmpPacketCfg Processor} {taken : Bool} {alloc : Option Nat}
    {now : UInt32} {type : UInt16} {cb : Option Callback}
    (h : serializeSequence p cfg taken alloc now type cb = some p') :
    p'.packetList = p.packetList ∧ (p'.sequenceList = p.sequenceList ∨
      ∃ a, alloc = some a ∧ cfg.sequencedReply = false ∧ cfg.sequencedRequest = true ∧
        p.sequenceList.itemAdd a p.messageCount
          ⟨type, now, defaultMessageTimeoutMs, p.messageCount, cb⟩ = some p'.sequenceList) := by
  unfold serializeSequence at h
  cases hreply : cfg.sequencedReply with
  | true =>
    obtain rfl : p = p' := by simpa [hreply] using h
    exact ⟨rfl, .inl rfl⟩
  | false =>
    cases hrequest : cfg.sequencedRequest with
    | false =>
      obtain rfl : p = p' := by simpa [hreply, hrequest] using h
      exact ⟨rfl, .inl rfl⟩
    | true =>
      simp only [hreply, hrequest, sequenceListAddMessage, Bool.false_eq_true, if_false,
        if_true] at h
      split at h
      · simp only [Option.bind_eq_bind, Option.bind_eq_some_iff] at h
        obtain ⟨ll, hadd, h⟩ := h
        obtain rfl := Option.some.inj h
        exact ⟨rfl, .inr ⟨_, rfl, rfl, rfl, hadd⟩⟩
      · obtain rfl := Option.some.inj h
        exact ⟨rfl, .inl rfl⟩

/-- `serialize` fails and does nothing, or it writes the message and counts a request. -/
theorem serialize_cases (hreg : Registered p) {taken : Bool} {alloc : Option Nat} {now : UInt32}
    {src dst payload : List UInt8} {packet' : Packet} {type : UInt16} {seqNum : UInt32}
    {cb : Option Callback} {err : BmErr}
    (h : serialize p taken alloc now ⟨src, dst, []⟩ payload type seqNum cb =
      some (p', packet', err)) :
    (err ≠ .ok ∧ p' = p) ∨ ∃ cfg c, err = .ok ∧ cfgOf type = some cfg ∧
      serializeSequence p cfg taken alloc now type cb = some p' ∧
      packet' = ⟨src, dst, header type c (serializeSeqNum p cfg seqNum) ++ payload⟩ := by
  unfold serialize at h
  split at h
  · obtain ⟨rfl, -, rfl⟩ : p = p' ∧ _ ∧ BmErr.einval = err := by simpa using h
    exact .inl ⟨by simp, rfl⟩
  rw [hreg type] at h
  cases hcfg : cfgOf type with
  | none =>
    obtain ⟨rfl, -, rfl⟩ : p = p' ∧ _ ∧ BmErr.enodev = err := by simpa [hcfg] using h
    exact .inl ⟨by simp, rfl⟩
  | some cfg =>
    simp only [hcfg, Option.bind_eq_bind, Option.bind_some, Option.bind_eq_some_iff,
      Option.some.injEq, Prod.mk.injEq] at h
    obtain ⟨q, hseq, rfl, rfl, rfl⟩ := h
    have hdata : ∀ c, setChecksum (header type 0 (serializeSeqNum p cfg seqNum) ++ payload ++
        List.drop (bcmpHeaderSize + payload.length) []) c =
          header type c (serializeSeqNum p cfg seqNum) ++ payload := by
      intro c
      rw [List.drop_nil, List.append_nil, setChecksum_header]
    exact .inr ⟨cfg, _, rfl, rfl, hseq, by rw [hdata]⟩

end Send

end BmCore.Bcmp
