import BmCore.Common.Crc
import BmCore.Configuration.TinyCbor
import Mathlib.Logic.Function.Basic

/-!
# The configuration store

`bcmp/configuration.c`. A partition has an array of keys and an array of values; the first
`numKeys` of both are in use. A key is given by a pointer and a length: its bytes are the `chars`
at the pointer, it is stored with `snprintf` and found with `strncmp`.

The functions are on one partition; `Op` runs them on the partition it names. A failing
`bm_config_read` leaves the partition alone.
-/
namespace BmCore.Configuration
open Library

/-- `MAX_NUM_KV` -/
def maxNumKv : Nat := 50
/-- `MAX_KEY_LEN_BYTES` -/
def maxKeyLenBytes : Nat := 32

inductive BmConfigPartition where
  | user
  | system
  | hardware
  deriving DecidableEq

inductive ConfigDataTypes where
  | uint32
  | int32
  | float
  | str
  | bytes
  | array
  deriving DecidableEq

/-- The enumerator. -/
def ConfigDataTypes.toNat : ConfigDataTypes → Nat
  | uint32 => 0
  | int32 => 1
  | float => 2
  | str => 3
  | bytes => 4
  | array => 5

structure ConfigKey where
  keyBuf : Buffer maxKeyLenBytes
  keyLen : Nat
  valueType : ConfigDataTypes

/-- `ConfigPartition`, with the fields of its header. -/
structure ConfigPartition where
  crc32 : UInt32
  version : UInt32
  numKeys : Nat
  keys : Nat → ConfigKey
  values : Nat → ConfigValue

/-- `ConfigInfo` -/
structure ConfigInfo where
  ramBuffer : ConfigPartition
  needsCommit : Bool

/-- The bytes of a partition from `header.version` on. -/
def ConfigPartition.body (p : ConfigPartition) : List UInt8 :=
  leBytes 4 p.version.toNat ++ leBytes 1 p.numKeys ++
    (List.range maxNumKv).flatMap (fun i =>
      (p.keys i).keyBuf.bytes ++ leBytes 8 (p.keys i).keyLen ++
        leBytes 4 (p.keys i).valueType.toNat) ++
    (List.range maxNumKv).flatMap fun i => (p.values i).bytes

/-! ## Keys -/

/-- The key at an index has the length and, up to a NUL, the bytes of a key. -/
def ConfigKey.matches (k : ConfigKey) (key : List UInt8) (len : Nat) : Bool :=
  k.keyLen == len && strncmpEq key k.keyBuf.bytes len

/-- `find_key_idx` -/
def findKeyIdx (p : ConfigPartition) (key : List UInt8) (len : Nat) : Option Nat :=
  (List.range p.numKeys).find? fun i => (p.keys i).matches key len

/-- The characters of `is_key_valid`: digits, letters, the underscore and NUL. -/
def isKeyChar (c : UInt8) : Bool :=
  (0x30 ≤ c && c ≤ 0x39) || (0x61 ≤ c && c ≤ 0x7A) || (0x41 ≤ c && c ≤ 0x5A) || c == 0x5F || c == 0

/-- `is_key_valid` -/
def isKeyValid (key : List UInt8) (keyLen : Nat) : Bool := (chars keyLen key).all isKeyChar

namespace ConfigPartition
variable (p : ConfigPartition)

/-- `snprintf` of a key into a key buffer. -/
def writeKeyBuf (idx : Nat) (key : List UInt8) : ConfigPartition :=
  { p with
    keys := Function.update p.keys idx
      { p.keys idx with keyBuf := snprintf (p.keys idx).keyBuf key } }

def writeValue (idx : Nat) (value : ConfigValue) : ConfigPartition :=
  { p with values := Function.update p.values idx value }

/-- Type and length of the key at an index. -/
def writeKey (idx : Nat) (valueType : ConfigDataTypes) (keyLen : Nat) : ConfigPartition :=
  { p with keys := Function.update p.keys idx { p.keys idx with valueType, keyLen } }

end ConfigPartition

/-! ## Reading -/

section Getters
variable (cbor : TinyCbor) (p : ConfigPartition) (key : List UInt8) (keyLen : Nat)

/-- `prepare_cbor_parser`: the buffer that the iterator is on. -/
def prepareCborParser : Option ConfigValue :=
  if keyLen > maxKeyLenBytes then none
  else match findKeyIdx p key keyLen with
    | none => none
    | some keyIdx =>
      if cbor.parserInit (p.values keyIdx).bytes then some (p.values keyIdx) else none

/-- `get_config_uint` -/
def getConfigUint : Option UInt32 := do
  let it ← prepareCborParser cbor p key keyLen
  if cbor.type it.bytes ≠ .unsignedInteger then none
  else (cbor.getUint64 it.bytes).map (·.toUInt32)

/-- `get_config_int` -/
def getConfigInt : Option Int32 := do
  let it ← prepareCborParser cbor p key keyLen
  if !cbor.isInteger it.bytes then none
  else (cbor.getInt64 it.bytes).map (·.toInt32)

/-- `get_config_float` -/
def getConfigFloat : Option UInt32 := do
  let it ← prepareCborParser cbor p key keyLen
  if cbor.type it.bytes ≠ .float then none
  else cbor.getFloat it.bytes

/-- `get_config_string` into a buffer of `valueLen` bytes. -/
def getConfigString (valueLen : Nat) : Option (List UInt8) := do
  let it ← prepareCborParser cbor p key keyLen
  if cbor.type it.bytes ≠ .textString then none
  else cbor.copyTextString it.bytes valueLen

/-- `get_config_buffer` -/
def getConfigBuffer (valueLen : Nat) : Option (List UInt8) := do
  let it ← prepareCborParser cbor p key keyLen
  if cbor.type it.bytes ≠ .byteString then none
  else cbor.copyByteString it.bytes valueLen

/-- `get_config_cbor` -/
def getConfigCbor (valueLen : Nat) : Option (List UInt8) := do
  let it ← prepareCborParser cbor p key keyLen
  if cbor.type it.bytes = .invalid then none
  else do
    let keyIdx ← findKeyIdx p key keyLen
    if valueLen < maxConfigBufferSizeBytes then none
    else some (p.values keyIdx).bytes

/-- `cbor_type_to_config` -/
def cborTypeToConfig : CborType → Option ConfigDataTypes
  | .unsignedInteger => some .uint32
  | .negativeInteger => some .int32
  | .byteString => some .bytes
  | .textString => some .str
  | .float => some .float
  | .array => some .array
  | .other => none
  | .invalid => none

/-- `get_value_size` -/
def getValueSize : Option Nat := do
  let it ← prepareCborParser cbor p key keyLen
  match ← cborTypeToConfig (cbor.type it.bytes) with
  | .uint32 => some 4
  | .int32 => some 4
  | .float => some 4
  | .str => cbor.getStringLength it.bytes
  | .bytes => cbor.getStringLength it.bytes
  | .array => cbor.getArrayLength it.bytes

/-- `get_stored_keys`: the bytes and the lengths of the keys. -/
def getStoredKeys : List (List UInt8 × Nat) :=
  (List.range p.numKeys).map fun i =>
    ((p.keys i).keyBuf.bytes.take (p.keys i).keyLen, (p.keys i).keyLen)

end Getters

/-- What the getters return for a key, for buffers of every size. -/
structure Readings where
  uint : Option UInt32
  int : Option Int32
  float : Option UInt32
  string : Nat → Option (List UInt8)
  buffer : Nat → Option (List UInt8)
  cbor : Nat → Option (List UInt8)
  valueSize : Option Nat

def readings (cbor : TinyCbor) (p : ConfigPartition) (key : List UInt8) (keyLen : Nat) :
    Readings where
  uint := getConfigUint cbor p key keyLen
  int := getConfigInt cbor p key keyLen
  float := getConfigFloat cbor p key keyLen
  string := getConfigString cbor p key keyLen
  buffer := getConfigBuffer cbor p key keyLen
  cbor := getConfigCbor cbor p key keyLen
  valueSize := getValueSize cbor p key keyLen

/-! ## Writing -/

section Setters
variable (cbor : TinyCbor) (info : ConfigInfo) (key : List UInt8) (keyLen : Nat)

/-- `prepare_cbor_encoder`: the partition with the key written, the index of the key, and if the key
was there before. -/
def prepareCborEncoder (p : ConfigPartition) : Option (ConfigPartition × Nat × Bool) :=
  if keyLen > maxKeyLenBytes then none
  else if p.numKeys ≥ maxNumKv then none
  else match findKeyIdx p key keyLen with
    | some keyIdx => some (p.writeKeyBuf keyIdx key, keyIdx, true)
    | none =>
      if isKeyValid key keyLen then some (p.writeKeyBuf p.numKeys key, p.numKeys, false) else none

/-- The setters for one type: what is in the slot of an item that does not fit stays there. -/
def setConfig (item : CborItem) (valueType : ConfigDataTypes) : ConfigInfo × Bool :=
  match prepareCborEncoder key keyLen info.ramBuffer with
  | none => (info, false)
  | some (p, keyIdx, keyExists) =>
    let encoded := cbor.encode item (p.values keyIdx)
    let p := p.writeValue keyIdx encoded.1
    if !encoded.2 then ({ info with ramBuffer := p }, false)
    else
      let p := p.writeKey keyIdx valueType keyLen
      let p := if keyExists then p else { p with numKeys := p.numKeys + 1 }
      (⟨p, true⟩, true)

/-- `set_config_uint` -/
def setConfigUint (value : UInt32) := setConfig cbor info key keyLen (.uint value) .uint32
/-- `set_config_int` -/
def setConfigInt (value : Int32) := setConfig cbor info key keyLen (.int value) .int32
/-- `set_config_float` -/
def setConfigFloat (value : UInt32) := setConfig cbor info key keyLen (.float value) .float
/-- `set_config_string` -/
def setConfigString (value : List UInt8) := setConfig cbor info key keyLen (.text value) .str
/-- `set_config_buffer` -/
def setConfigBuffer (value : List UInt8) := setConfig cbor info key keyLen (.bytes value) .bytes

/-- `set_config_cbor`; `value_len` is the length of the value. -/
def setConfigCbor (value : List UInt8) : ConfigInfo × Bool :=
  if keyLen > maxKeyLenBytes then (info, false)
  else if value.length > maxConfigBufferSizeBytes ∨ value.length = 0 then (info, false)
  else if !cbor.parserInit value then (info, false)
  else if cbor.type value = .invalid then (info, false)
  else
    let found : Option (ConfigPartition × Nat) :=
      match findKeyIdx info.ramBuffer key keyLen with
      | some keyIdx => some (info.ramBuffer, keyIdx)
      | none =>
        if !isKeyValid key keyLen then none
        else if info.ramBuffer.numKeys ≥ maxNumKv then none
        else some (info.ramBuffer.writeKeyBuf info.ramBuffer.numKeys key, info.ramBuffer.numKeys)
    match found with
    | none => (info, false)
    | some (p, keyIdx) =>
      match cborTypeToConfig (cbor.type value) with
      | none => ({ info with ramBuffer := p }, false)
      | some valueType =>
        let p := p.writeKey keyIdx valueType keyLen
        let p := p.writeValue keyIdx ((p.values keyIdx).put value)
        let p := if keyIdx = p.numKeys then { p with numKeys := p.numKeys + 1 } else p
        (⟨p, true⟩, true)

/-- `remove_key` -/
def removeKey : ConfigInfo × Bool :=
  let p := info.ramBuffer
  match findKeyIdx p key keyLen with
  | none => (info, false)
  | some keyIdx =>
    -- the keys and the values behind the key are moved up
    let p := if p.numKeys - 1 > keyIdx then
        { p with
          keys := fun i => if keyIdx ≤ i ∧ i < p.numKeys - 1 then p.keys (i + 1) else p.keys i
          values := fun i =>
            if keyIdx ≤ i ∧ i < p.numKeys - 1 then p.values (i + 1) else p.values i }
      else p
    (⟨{ p with numKeys := p.numKeys - 1 }, true⟩, true)

/-- Memory of zeros. -/
def zeroPartition : ConfigPartition where
  crc32 := 0
  version := 0
  numKeys := 0
  keys _ := ⟨⟨List.replicate maxKeyLenBytes 0, by simp⟩, 0, .uint32⟩
  values _ := ⟨List.replicate maxConfigBufferSizeBytes 0, by simp⟩

/-- `clear_partition`; `CONFIG_VERSION` is 0. -/
def clearPartition : ConfigInfo × Bool := (⟨zeroPartition, true⟩, true)

/-! ## Saving and loading -/

/-- `save_config`: the partition with its checksum is written, where `bm_config_write` succeeds. -/
def saveConfig (written : Bool) : ConfigInfo × Bool :=
  let p := { info.ramBuffer with crc32 := crc32Ieee info.ramBuffer.body }
  if !written then ({ info with ramBuffer := p }, false)
  else (⟨p, false⟩, true)

end Setters

/-- `load_and_verify_nvm_config`, with what `bm_config_read` reads. -/
def loadAndVerifyNvmConfig (p : ConfigPartition) (read : Option ConfigPartition) :
    ConfigPartition × Bool :=
  match read with
  | none => (p, false)
  | some image => (image, image.crc32 == crc32Ieee image.body)

/-- `config_init` for a partition. -/
def configInit (info : ConfigInfo) (read : Option ConfigPartition) : ConfigInfo :=
  let (p, ok) := loadAndVerifyNvmConfig info.ramBuffer read
  if ok then { info with ramBuffer := p }
  else { info with ramBuffer := { p with numKeys := 0, version := 0 } }

end BmCore.Configuration
