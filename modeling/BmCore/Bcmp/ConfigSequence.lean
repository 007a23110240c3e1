import BmCore.Bcmp.ConfigHandlers

/-!
# The numbers of config replies

A reply goes to the source of the request, as the message that answers it, and with the low 16 bits
of its number: this is what the parameters of the handlers hold. With them it is the reply that
`configReply` sends for some answer.
-/
namespace BmCore.Bcmp
open Library Configuration Access

/-- A reply of a handler: the message for the request, to its source. -/
structure Answers (node : ConfigNode) (source : UInt64) (m : ConfigMessage) (seqNum : UInt32)
    (r : ConfigReply) : Prop where
  message : m.reply = some r.message
  payload : ∃ body, r.payload = configHeader source node.nodeId ++ body
  seqNum : r.seqNum = seqNum.toUInt16

section Replies
variable {node : ConfigNode} {m : ConfigMessage} {seqNum : UInt32} {beyond : Nat → UInt8}
  {payload : List UInt8} {r : ConfigReply}

theorem bcmpConfigSendValue_answers {i : Nat} {target : UInt64} {partition : Nat}
    {data : List UInt8} (hm : m.reply = some .value)
    (h : bcmpConfigSendValue node seqNum.toUInt16 i target partition data = some r) :
    Answers node target m seqNum r := by
  obtain ⟨-, -, rfl⟩ := Option.map_eq_some_iff.mp h
  exact ⟨hm, ⟨_, by rw [List.append_assoc, List.append_assoc]⟩, rfl⟩

theorem status_answers
    (h : ((bcmpConfigProcessStatusRequestMsg node seqNum.toUInt16).run beyond payload).1.reply =
      some r) :
    Answers node (.ofNat (leNat (window beyond payload 8 8))) .statusRequest seqNum r := by
  simp only [bcmpConfigProcessStatusRequestMsg, run_bind, run_byteField, run_sourceField, run_pure,
    Option.map_eq_some_iff] at h
  obtain ⟨msg, hmsg, rfl⟩ := h
  have hblock : ∀ i size b, node.malloc i size = some b → b.length = size := by
    intro i size b hb
    obtain ⟨-, -, rfl⟩ := Option.map_eq_some_iff.mp hb
    rw [List.length_map, List.length_range]
  obtain ⟨rest, rfl⟩ := statusResponse_fields _ _ _ _ (hblock _ _) hmsg
  exact ⟨rfl, ⟨_, by rw [statusFields, List.append_assoc]⟩, rfl⟩

theorem get_answers
    (h : ((bcmpConfigProcessConfigGetMsg node seqNum.toUInt16).run beyond payload).1.reply =
      some r) :
    Answers node (.ofNat (leNat (window beyond payload 8 8))) .get seqNum r := by
  unfold bcmpConfigProcessConfigGetMsg at h
  split at h
  · simp at h
  simp only [run_bind, run_byteField, run_getConfigCbor] at h
  split at h
  · simp at h
  · rw [run_bind, run_sourceField, run_pure] at h
    exact bcmpConfigSendValue_answers rfl h

theorem set_answers
    (h : ((bcmpConfigProcessConfigSetMsg node seqNum.toUInt16).run beyond payload).1.reply =
      some r) :
    Answers node (.ofNat (leNat (window beyond payload 8 8))) .set seqNum r := by
  simp only [bcmpConfigProcessConfigSetMsg, run_bind, run_dataLengthField] at h
  split at h
  · simp at h
  simp only [run_bind, run_byteField, run_setConfigCbor] at h
  split at h
  · rw [run_bind, run_sourceField, run_bind, run_readRange, run_pure] at h
    exact bcmpConfigSendValue_answers rfl h
  · simp at h

theorem delete_answers
    (h : ((bcmpProcessDelRequestMessage node seqNum.toUInt16).run beyond payload).1.reply =
      some r) :
    Answers node (.ofNat (leNat (window beyond payload 8 8))) .deleteRequest seqNum r := by
  have hremove := fun info => run_removeKey beyond payload 18 info
    (byteAt_le_addressSpace beyond payload 17)
  simp only [bcmpProcessDelRequestMessage, run_bind, run_byteField, run_sourceField, hremove,
    run_pure] at h
  unfold bcmpConfigSendDelKeyResponse at h
  split at h
  · simp at h
  · rw [run_bind, run_readRange, run_pure] at h
    obtain rfl := Option.some.inj h
    exact ⟨rfl, ⟨_, by rw [List.append_assoc]⟩, rfl⟩

theorem clear_answers
    (h : ((bcmpProcessClearRequestMessage node seqNum.toUInt16).run beyond payload).1.reply =
      some r) :
    Answers node (.ofNat (leNat (window beyond payload 8 8))) .clearRequest seqNum r := by
  simp only [bcmpProcessClearRequestMessage, run_bind, run_byteField, run_sourceField] at h
  split at h
  · obtain rfl := Option.some.inj h
    exact ⟨rfl, ⟨_, rfl⟩, rfl⟩
  · obtain rfl := Option.some.inj h
    exact ⟨rfl, ⟨_, rfl⟩, rfl⟩

/-- What a node replies to a message for itself. -/
theorem bcmpProcessConfigMessage_answers {o : ConfigOutcome}
    (ho : ((Traced.bcmpProcessConfigMessage node m seqNum).run beyond payload).1 = some o)
    (h : o.reply = some r) :
    Answers node (.ofNat (leNat (window beyond payload 8 8))) m seqNum r := by
  rw [Traced.bcmpProcessConfigMessage, run_bind, run_readRange] at ho
  dsimp only at ho
  split at ho
  · cases ho
  rw [run_bind, run_pure] at ho
  obtain rfl := Option.some.inj ho
  cases m with
  | get => exact get_answers h
  | set => exact set_answers h
  | statusRequest => exact status_answers h
  | deleteRequest => exact delete_answers h
  | clearRequest => exact clear_answers h
  | commit => simp [handleConfigMessage, bcmpConfigProcessCommitMsg] at h
  | statusResponse => simp [handleConfigMessage, processStatusResponse] at h
  | value => simp [handleConfigMessage, bcmpProcessValueMessage] at h
  | deleteResponse =>
    simp only [handleConfigMessage, bcmpProcessDelResponseMessage, run_bind] at h
    split at h <;> simp at h
  | clearResponse => simp [handleConfigMessage, bcmpProcessClearResponseMessage] at h

/-- The handlers send the reply of `configReply`, with some answer. -/
theorem reply_eq_configReply {data : BcmpProcessData} {o : ConfigOutcome}
    (hm : ConfigMessage.ofType data.type = some m) (hsize : 16 ≤ data.payload.length)
    (ho : ((Traced.bcmpProcessConfigMessage node m data.seqNum).run beyond data.payload).1 = some o)
    (h : o.reply = some r) :
    ∃ answer, configReply node.nodeId data (some answer) =
      some (r.message, r.payload, r.seqNum.toUInt32) := by
  have hanswers := bcmpProcessConfigMessage_answers ho h
  obtain ⟨answer, hpayload⟩ := hanswers.payload
  have hsource : sourceNodeId data.payload = .ofNat (leNat (window beyond data.payload 8 8)) := by
    rw [sourceNodeId, fieldAt, window_eq_slice _ _ (by omega)]
  refine ⟨answer, ?_⟩
  simp [configReply, hm, hanswers.message, hpayload, hanswers.seqNum, hsource]

end Replies

/-! ## The numbers -/

/-- A message that answers another one is sent with the number it is given. -/
theorem reply_sequenced {m r : ConfigMessage} (h : m.reply = some r) : r.sequencedReply = true := by
  cases m <;> simp only [ConfigMessage.reply, Option.some.injEq, reduceCtorEq] at h <;> subst h <;>
    rfl

/-- The number of a reply is that of the request if and only if this has 16 bits. -/
theorem config_reply_seq_num_iff {node : ConfigNode} {m : ConfigMessage} {seqNum : UInt32}
    {beyond : Nat → UInt8} {payload : List UInt8} {o : ConfigOutcome} {r : ConfigReply}
    (ho : ((Traced.bcmpProcessConfigMessage node m seqNum).run beyond payload).1 = some o)
    (hr : o.reply = some r) {Callback : Type} {p p' : PacketInfo Processor Callback}
    (hreg : Registered p) {taken : Bool} {alloc : Option Nat} {now : UInt32} {src dst : List UInt8}
    {packet : Packet}
    (hsent : serialize p taken alloc now ⟨src, dst, []⟩ r.payload r.message.type
      r.seqNum.toUInt32 none = some (p', packet, .ok)) :
    headerType packet.data = r.message.type ∧
      (headerSeqNum packet.data = seqNum ↔ seqNum.toNat < 2 ^ 16) := by
  have hanswers := bcmpProcessConfigMessage_answers ho hr
  have htype : ConfigMessage.ofType r.message.type = some r.message := by cases r.message <;> rfl
  have hcut : seqNum.toUInt16.toUInt32 = seqNum ↔ seqNum.toNat < 2 ^ 16 := by
    rw [← UInt32.toNat_inj, UInt16.toNat_toUInt32, UInt32.toNat_toUInt16]
    omega
  rcases serialize_cases hreg hsent with ⟨herr, -⟩ | ⟨cfg, c, -, hcfg, -, rfl⟩
  · exact absurd rfl herr
  obtain rfl : r.message.cfg = cfg := Option.some.inj ((cfgOf_config htype).symm.trans hcfg)
  have hseq : serializeSeqNum p r.message.cfg r.seqNum.toUInt32 = seqNum.toUInt16.toUInt32 := by
    rw [serializeSeqNum, ConfigMessage.cfg, reply_sequenced hanswers.message, if_pos rfl,
      hanswers.seqNum]
  rw [hseq, headerType_header, headerSeqNum_header]
  exact ⟨rfl, hcut⟩

/-! ## A partition that is cleared -/

/-- Node 2 asks node 1 to clear its user partition. -/
def clearRequest : List UInt8 := configHeader 1 2 ++ [0]

def clearOutcome (seqNum : UInt32) : Option ConfigOutcome :=
  ((Traced.bcmpProcessConfigMessage emptyNode .clearRequest seqNum).run (fun _ => 0) clearRequest).1

def clearReply (seqNum : UInt16) : ConfigReply :=
  ⟨.clearResponse, configHeader 2 1 ++ [1, 0], seqNum⟩

def bootedPacket : PacketInfo Processor Unit :=
  (bcmpInit (freshPacketInfo fun _ _ => 0) (List.range registrations.length)).getD
    (freshPacketInfo fun _ _ => 0)

theorem bootedPacket_registered : Registered bootedPacket := by
  have hpackets : (freshPacketInfo fun _ _ => 0 : PacketInfo Processor Unit).packetList = .empty :=
    rfl
  obtain ⟨p, hp, -, -, hreg⟩ := bcmpInit_registered hpackets
    (List.nodup_range : (List.range registrations.length).Nodup) List.length_range
  rw [bootedPacket, hp]
  exact hreg

/-- What node 1 sends to node 2. -/
def clearPacket (seqNum : UInt16) : Option (PacketInfo Processor Unit × Packet × BmErr) :=
  serialize bootedPacket true none 0 ⟨[], [], []⟩ (clearReply seqNum).payload
    ConfigMessage.clearResponse.type seqNum.toUInt32 none

theorem config_reply_seq_num_five : (clearPacket 5).map (headerSeqNum ·.2.1.data) = some 5 := by
  cases ho : clearOutcome 5 with
  | none => exact absurd (congrArg Option.isSome ho) (by decide +kernel)
  | some o =>
    cases hsent : clearPacket 5 with
    | none => exact absurd (congrArg Option.isSome hsent) (by decide +kernel)
    | some sent =>
      obtain ⟨p', packet, err⟩ := sent
      have hr : o.reply = some (clearReply 5) := by
        have hreply : (clearOutcome 5).bind (·.reply) = some (clearReply 5) := by decide +kernel
        rwa [ho] at hreply
      have herr : err = .ok := by
        have hok : (clearPacket 5).map (·.2.2) = some .ok := by decide +kernel
        rw [hsent] at hok
        exact Option.some.inj hok
      subst herr
      have hseq := (config_reply_seq_num_iff ho hr bootedPacket_registered hsent).2.mpr (by decide)
      rw [Option.map_some, hseq]

/-- The reply to request 65541 has the number 5. -/
theorem config_reply_seq_num_wraps :
    (clearOutcome 65541).bind (·.reply) = some (clearReply 5) ∧
      (clearPacket 5).map (headerSeqNum ·.2.1.data) ≠ some 65541 := by decide +kernel

end BmCore.Bcmp
