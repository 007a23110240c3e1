import BmCore.Bcmp.ConfigStatus
import BmCore.Configuration.Reads

/-!
# The handlers of config messages

The handlers of `bcmp/config.c`, read by read of the payload. `CONFIGS` is indexed by a number, and
goes on behind its end with whatever lies there. A handler tells which elements it looks at, what it
leaves in one of them, and what it replies.

What is printed is left out, and so is the restart after a commit.
-/
namespace BmCore.Bcmp
open Library Configuration Access

/-- `BM_CFG_PARTITION_COUNT` -/
def bmCfgPartitionCount : Nat := 3

/-- A message that a handler sends, with the number that it gives to `bcmp_tx`. -/
structure ConfigReply where
  message : ConfigMessage
  payload : List UInt8
  seqNum : UInt16
  deriving DecidableEq

/-- What a handler does. -/
structure ConfigOutcome where
  /-- An element of `CONFIGS` that it changes. -/
  change : Option (Nat × ConfigInfo) := none
  /-- A partition that it writes to flash. -/
  saved : Option (Nat × ConfigPartition) := none
  reply : Option ConfigReply := none
  /-- The indices into `CONFIGS`. -/
  indexed : List Nat := []

/-- What a handler finds at the node. -/
structure ConfigNode where
  nodeId : UInt64
  cbor : TinyCbor
  configs : Nat → ConfigInfo
  /-- What `bm_malloc` returns for the calls of a handler. -/
  alloc : Nat → Option (Nat → UInt8)
  /-- `bm_config_write` succeeds. -/
  written : Bool

/-- Node 1, which has no keys and no memory. -/
def emptyNode : ConfigNode := ⟨1, tinyCbor, fun _ => ⟨zeroPartition, false⟩, fun _ => none, true⟩

/-- `CONFIGS` after a handler. -/
def ConfigOutcome.configs (o : ConfigOutcome) (configs : Nat → ConfigInfo) : Nat → ConfigInfo :=
  match o.change with
  | none => configs
  | some (i, info) => Function.update configs i info

section Handlers
variable (node : ConfigNode) (seqNum : UInt16)

/-- A block of a size. -/
def ConfigNode.malloc (i size : Nat) : Option (List UInt8) :=
  (node.alloc i).map fun contents => (List.range size).map contents

/-! ## Fields -/

/-- `header.source_node_id` -/
def sourceField : Access UInt8 UInt64 := do
  let bytes ← readRange 8 8
  pure (.ofNat (leNat bytes))

/-- `data_length` -/
def dataLengthField (off : Nat) : Access UInt8 Nat := do
  let bytes ← readRange off 4
  pure (leNat bytes)

/-- A byte, as the index or the length that it is used for. -/
def byteField (off : Nat) : Access UInt8 Nat := do
  let byte ← readAt off
  pure byte.toNat

/-! ## Replies -/

/-- `bcmp_config_send_value` -/
def bcmpConfigSendValue (i : Nat) (target : UInt64) (partition : Nat) (data : List UInt8) :
    Option ConfigReply :=
  (node.malloc i (21 + data.length)).map fun _ =>
    ⟨.value, configHeader target node.nodeId ++ [.ofNat partition] ++ leBytes 4 data.length ++ data,
      seqNum⟩

/-- `bcmp_config_send_del_key_response` -/
def bcmpConfigSendDelKeyResponse (target : UInt64) (partition keyLen key : Nat) (success : Bool) :
    Access UInt8 (Option ConfigReply) :=
  match node.malloc 0 (19 + keyLen) with
  | none => pure none
  | some _ => do
    let chars ← readRange key keyLen
    pure (some ⟨.deleteResponse, configHeader target node.nodeId ++
      [if success then 1 else 0, .ofNat partition, .ofNat keyLen] ++ chars, seqNum⟩)

/-- `bcmp_send_clear_response_message` -/
def bcmpSendClearResponseMessage (target : UInt64) (partition : Nat) (success : Bool) :
    ConfigReply :=
  ⟨.clearResponse, configHeader target node.nodeId ++
    [if success then 1 else 0, .ofNat partition], seqNum⟩

/-! ## Requests -/

/-- `bcmp_config_process_commit_msg` -/
def bcmpConfigProcessCommitMsg : Access UInt8 ConfigOutcome := do
  let partition ← byteField 16
  let (info, ok) := saveConfig (node.configs partition) node.written
  pure {
    change := some (partition, info)
    saved := bif ok then some (partition, info.ramBuffer) else none
    indexed := [partition] }

/-- `needs_commit` -/
def needsCommit (partition : Nat) : Bool :=
  if partition < bmCfgPartitionCount then (node.configs partition).needsCommit else false

/-- `bcmp_config_process_status_request_msg` -/
def bcmpConfigProcessStatusRequestMsg : Access UInt8 ConfigOutcome := do
  let partition ← byteField 16
  let p := (node.configs partition).ramBuffer
  let source ← sourceField
  let response := bcmpConfigStatusResponse p source node.nodeId (.ofNat partition)
    (needsCommit node partition) (node.malloc 0 (statusMsgSize p))
  pure { reply := response.map (⟨.statusResponse, ·, seqNum⟩), indexed := [partition] }

/-- `bcmp_config_process_config_get_msg` -/
def bcmpConfigProcessConfigGetMsg : Access UInt8 ConfigOutcome :=
  match node.malloc 0 maxConfigBufferSizeBytes with
  | none => pure {}
  | some _ => do
    let partition ← byteField 16
    let keyLength ← byteField 17
    let value ← Traced.getConfigCbor node.cbor (node.configs partition).ramBuffer 18 keyLength
      maxConfigBufferSizeBytes
    match value with
    | none => pure { indexed := [partition] }
    | some buffer => do
      let source ← sourceField
      pure {
        reply := bcmpConfigSendValue node seqNum 1 source partition buffer
        indexed := [partition] }

/-- `bcmp_config_process_config_set_msg` -/
def bcmpConfigProcessConfigSetMsg : Access UInt8 ConfigOutcome := do
  let dataLength ← dataLengthField 18
  if dataLength > maxConfigBufferSizeBytes ∨ dataLength = 0 then pure {}
  else do
    let partition ← byteField 16
    let keyLength ← byteField 17
    let (info, ok) ← Traced.setConfigCbor node.cbor (node.configs partition) 22 keyLength
      (22 + keyLength) dataLength
    if ok then do
      let source ← sourceField
      let data ← readRange (22 + keyLength) dataLength
      pure {
        change := some (partition, info)
        reply := bcmpConfigSendValue node seqNum 0 source partition data
        indexed := [partition] }
    else pure { change := some (partition, info), indexed := [partition] }

/-- `bcmp_process_del_request_message` -/
def bcmpProcessDelRequestMessage : Access UInt8 ConfigOutcome := do
  let partition ← byteField 16
  let keyLength ← byteField 17
  let (info, success) ← Traced.removeKey (node.configs partition) 18 keyLength
  let source ← sourceField
  let reply ← bcmpConfigSendDelKeyResponse node seqNum source partition keyLength 18 success
  pure { change := some (partition, info), reply, indexed := [partition] }

/-- `bcmp_process_clear_request_message`; `clear_partition` looks at the partition. -/
def bcmpProcessClearRequestMessage : Access UInt8 ConfigOutcome := do
  let partition ← byteField 16
  let source ← sourceField
  if partition < bmCfgPartitionCount then
    let (info, success) := clearPartition
    pure {
      change := some (partition, info)
      reply := some (bcmpSendClearResponseMessage node seqNum source partition success)
      indexed := [partition] }
  else
    pure { reply := some (bcmpSendClearResponseMessage node seqNum source partition false) }

/-! ## Replies that are received -/

/-- `bcmp_process_value_message`: TinyCBOR is given the data. -/
def bcmpProcessValueMessage : Access UInt8 ConfigOutcome := do
  let dataLength ← dataLengthField 17
  let _ ← readRange 21 dataLength
  pure {}

/-- A status response in `bcmp_process_config_message`. -/
def processStatusResponse : Access UInt8 ConfigOutcome := do
  let _ ← readStatusResponse fun i => (node.alloc i).isSome
  pure {}

/-- `bcmp_process_del_response_message` -/
def bcmpProcessDelResponseMessage : Access UInt8 ConfigOutcome := do
  let keyLength ← byteField 18
  match node.malloc 0 (keyLength + 1) with
  | none => pure {}
  | some _ => do
    let _ ← readRange 19 keyLength
    pure {}

/-- `bcmp_process_clear_response_message` -/
def bcmpProcessClearResponseMessage : Access UInt8 ConfigOutcome := do
  let _ ← byteField 16
  let _ ← byteField 17
  pure {}

/-- The handler of a message; a number of 32 bits is given to a parameter of 16. -/
def handleConfigMessage (m : ConfigMessage) (seqNum : UInt32) : Access UInt8 ConfigOutcome :=
  match m with
  | .get => bcmpConfigProcessConfigGetMsg node seqNum.toUInt16
  | .set => bcmpConfigProcessConfigSetMsg node seqNum.toUInt16
  | .commit => bcmpConfigProcessCommitMsg node
  | .statusRequest => bcmpConfigProcessStatusRequestMsg node seqNum.toUInt16
  | .statusResponse => processStatusResponse node
  | .value => bcmpProcessValueMessage
  | .deleteRequest => bcmpProcessDelRequestMessage node seqNum.toUInt16
  | .deleteResponse => bcmpProcessDelResponseMessage node
  | .clearRequest => bcmpProcessClearRequestMessage node seqNum.toUInt16
  | .clearResponse => bcmpProcessClearResponseMessage

/-- `bcmp_process_config_message` on a message of a type: there is no outcome if the message is
forwarded. -/
def Traced.bcmpProcessConfigMessage (m : ConfigMessage) (seqNum : UInt32) :
    Access UInt8 (Option ConfigOutcome) := do
  let bytes ← readRange 0 8
  if UInt64.ofNat (leNat bytes) ≠ node.nodeId then pure none
  else do
    let outcome ← handleConfigMessage node m seqNum
    pure (some outcome)

end Handlers

/-! ## What the fields are -/

section Fields
variable {beyond : Nat → UInt8} {buf : List UInt8} {off : Nat}

@[simp] theorem run_byteField :
    (byteField off).run beyond buf = ((byteAt beyond buf off).toNat, buf) := rfl

@[simp] theorem run_sourceField :
    sourceField.run beyond buf = (.ofNat (leNat (window beyond buf 8 8)), buf) := by
  rw [sourceField, run_bind, run_readRange, run_pure]
  rfl

@[simp] theorem run_dataLengthField :
    (dataLengthField off).run beyond buf = (leNat (window beyond buf off 4), buf) := by
  rw [dataLengthField, run_bind, run_readRange, run_pure]
  rfl

variable (beyond buf off) in
/-- A length of one byte. -/
theorem byteAt_le_addressSpace : (byteAt beyond buf off).toNat ≤ addressSpace := by
  have hlt := (byteAt beyond buf off).toNat_lt
  simp only [addressSpace]
  omega

theorem within_byteField : (byteField off).Within beyond buf ↔ off < buf.length := by
  rw [byteField, within_bind, within_readAt]
  exact and_iff_left (within_pure _)

theorem within_sourceField : sourceField.Within beyond buf ↔ 16 ≤ buf.length := by
  rw [sourceField, within_bind, within_readRange_iff]
  simp [within_pure]

theorem within_dataLengthField :
    (dataLengthField off).Within beyond buf ↔ off + 4 ≤ buf.length := by
  rw [dataLengthField, within_bind, within_readRange_iff]
  simp [within_pure]

end Fields

end BmCore.Bcmp
