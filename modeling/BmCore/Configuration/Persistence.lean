import BmCore.Configuration.SetGet

/-!
# Saving and loading

A partition is written to flash as its packed bytes and read back from them. What was saved reads
as before after a restart, whatever was in RAM; an image whose checksum does not match leaves no
keys behind, and the setters work on what it has left in RAM.
-/
namespace BmCore.Configuration
open Library

/-! ## Images -/

/-- The bytes of a key: its buffer, its length as a `size_t`, and the enumerator of its type. -/
def ConfigKey.image (k : ConfigKey) : List UInt8 :=
  k.keyBuf.bytes ++ leBytes 8 k.keyLen ++ leBytes 4 k.valueType.toNat

/-- The packed bytes of a partition. -/
def ConfigPartition.image (p : ConfigPartition) : List UInt8 := leBytes 4 p.crc32.toNat ++ p.body

/-- The type with an enumerator; no partition is saved with another one. -/
def ConfigDataTypes.ofEnumerator : Nat → ConfigDataTypes
  | 1 => .int32
  | 2 => .float
  | 3 => .str
  | 4 => .bytes
  | 5 => .array
  | _ => .uint32

def ConfigKey.ofImage (b : List UInt8) : ConfigKey where
  keyBuf := ⟨chars maxKeyLenBytes b, length_chars ..⟩
  keyLen := leNat ((b.drop 32).take 8)
  valueType := .ofEnumerator (leNat ((b.drop 40).take 4))

/-- The partition that is in RAM when its bytes have been read. -/
def ConfigPartition.ofImage (b : List UInt8) : ConfigPartition where
  crc32 := .ofNat (leNat (b.take 4))
  version := .ofNat (leNat ((b.drop 4).take 4))
  numKeys := leNat ((b.drop 8).take 1)
  keys i := .ofImage (b.drop (9 + 44 * i))
  values i :=
    ⟨chars maxConfigBufferSizeBytes (b.drop (9 + 44 * maxNumKv + 50 * i)), length_chars ..⟩

/-- `sizeof(ConfigPartition)` -/
def configPartitionSize : Nat := 9 + 44 * maxNumKv + 50 * maxNumKv

/-- `load_and_verify_nvm_config` over the bytes that `bm_config_read` reads. The checksum is the one
of these bytes, whether they are those of a partition or not. -/
def loadAndVerifyNvmBytes (p : ConfigPartition) (read : Option (Buffer configPartitionSize)) :
    ConfigPartition × Bool :=
  match read with
  | none => (p, false)
  | some image => (.ofImage image.bytes,
      UInt32.ofNat (leNat (image.bytes.take 4)) == crc32Ieee (image.bytes.drop 4))

/-- `config_init` for a partition, over the bytes. -/
def configInitBytes (info : ConfigInfo) (read : Option (Buffer configPartitionSize)) :
    ConfigInfo :=
  let (p, ok) := loadAndVerifyNvmBytes info.ramBuffer read
  if ok then { info with ramBuffer := p }
  else { info with ramBuffer := { p with numKeys := 0, version := 0 } }

/-- The partitions have the same keys and values. -/
structure SameContents (p p' : ConfigPartition) : Prop where
  numKeys : p'.numKeys = p.numKeys
  keys : ∀ i < p.numKeys, p'.keys i = p.keys i
  values : ∀ i < p.numKeys, p'.values i = p.values i

/-- The value of a call fits into a slot. -/
def Fits (cbor : TinyCbor) : SetCall → Prop
  | .typed item => item.encoding.1.length + item.encoding.2.length ≤ maxConfigBufferSizeBytes
  | .cbor value => value.length ≠ 0 ∧ value.length ≤ maxConfigBufferSizeBytes ∧
    cbor.parserInit value = true ∧ (cborTypeToConfig (cbor.type value)).isSome = true

section Images
variable {p p' : ConfigPartition}

theorem length_keyImage (k : ConfigKey) : k.image.length = 44 := by
  simp [ConfigKey.image, k.keyBuf.length_eq, maxKeyLenBytes]

/-- Header, keys and values. -/
theorem image_eq (p : ConfigPartition) : p.image =
    leBytes 4 p.crc32.toNat ++ (leBytes 4 p.version.toNat ++ (leBytes 1 p.numKeys ++
      ((List.range maxNumKv).flatMap (fun i => (p.keys i).image) ++
        (List.range maxNumKv).flatMap fun i => (p.values i).bytes))) := by
  simp only [ConfigPartition.image, ConfigPartition.body, ConfigKey.image, List.append_assoc]

theorem length_image (p : ConfigPartition) : p.image.length = configPartitionSize := by
  have hkeys : ((List.range maxNumKv).flatMap fun i => (p.keys i).image).length =
      44 * maxNumKv := by
    rw [List.length_flatMap, List.map_congr_left fun i _ => length_keyImage (p.keys i)]
    simp [maxNumKv]
  have hvalues : ((List.range maxNumKv).flatMap fun i => (p.values i).bytes).length =
      50 * maxNumKv := by
    rw [List.length_flatMap, List.map_congr_left fun i _ => (p.values i).length_eq]
    simp [maxNumKv, maxConfigBufferSizeBytes]
  rw [image_eq]
  simp only [List.length_append, leBytes_length, hkeys, hvalues, configPartitionSize]
  omega

/-- The bytes of a partition in flash. -/
def ConfigPartition.flash (p : ConfigPartition) : Buffer configPartitionSize :=
  ⟨p.image, length_image p⟩

theorem ofEnumerator_toNat (t : ConfigDataTypes) :
    ConfigDataTypes.ofEnumerator (leNat (leBytes 4 t.toNat)) = t := by
  cases t <;> rfl

/-- A key is read back from its bytes up to the size of its length. -/
theorem ofImage_keyImage (k : ConfigKey) (rest : List UInt8) :
    ConfigKey.ofImage (k.image ++ rest) = { k with keyLen := leNat (leBytes 8 k.keyLen) } := by
  have hbuf : k.keyBuf.bytes.length = 32 := k.keyBuf.length_eq
  have hchars : chars maxKeyLenBytes (k.image ++ rest) = k.keyBuf.bytes := by
    rw [chars_of_le (by simp [ConfigKey.image, hbuf, maxKeyLenBytes]), ConfigKey.image,
      List.append_assoc, List.append_assoc, List.take_left' k.keyBuf.length_eq]
  have hlen : ((k.image ++ rest).drop 32).take 8 = leBytes 8 k.keyLen := by
    rw [ConfigKey.image, List.append_assoc, List.append_assoc, List.drop_left' hbuf,
      List.take_left' (by simp)]
  have htype : ((k.image ++ rest).drop 40).take 4 = leBytes 4 k.valueType.toNat := by
    rw [ConfigKey.image, List.append_assoc, List.drop_left' (by simp [hbuf]),
      List.take_left' (by simp)]
  simp only [ConfigKey.ofImage, hchars, hlen, htype, ofEnumerator_toNat]

/-- What is in RAM when a partition has been read back. -/
structure Loaded (p p' : ConfigPartition) : Prop where
  crc32 : p'.crc32 = p.crc32
  version : p'.version = p.version
  numKeys : p'.numKeys = p.numKeys
  keys : ∀ i < maxNumKv, p'.keys i = { p.keys i with keyLen := leNat (leBytes 8 (p.keys i).keyLen) }
  values : ∀ i < maxNumKv, p'.values i = p.values i

theorem ofImage_loaded (hnum : p.numKeys ≤ maxNumKv) : Loaded p (.ofImage p.image) := by
  have hkeys : ((List.range maxNumKv).flatMap fun i => (p.keys i).image).length =
      44 * maxNumKv := by
    rw [List.length_flatMap, List.map_congr_left fun i _ => length_keyImage (p.keys i)]
    simp [maxNumKv]
  have hheader : ∀ n, p.image.drop (9 + n) =
      ((List.range maxNumKv).flatMap (fun i => (p.keys i).image) ++
        (List.range maxNumKv).flatMap fun i => (p.values i).bytes).drop n := by
    intro n
    rw [image_eq, ← List.append_assoc, ← List.append_assoc, List.drop_append,
      List.drop_eq_nil_of_le (by simp), List.nil_append]
    congr 1
    simp
  refine ⟨?_, ?_, ?_, fun i hi => ?_, fun i hi => ?_⟩
  · show UInt32.ofNat (leNat (p.image.take 4)) = p.crc32
    rw [image_eq, List.take_left' (by simp), leNat_leBytes p.crc32.toNat_lt, UInt32.ofNat_toNat]
  · show UInt32.ofNat (leNat ((p.image.drop 4).take 4)) = p.version
    rw [image_eq, List.drop_left' (by simp), List.take_left' (by simp),
      leNat_leBytes p.version.toNat_lt, UInt32.ofNat_toNat]
  · show leNat ((p.image.drop 8).take 1) = p.numKeys
    rw [image_eq, ← List.append_assoc, List.drop_left' (by simp), List.take_left' (by simp),
      leNat_leBytes]
    simp only [maxNumKv] at hnum
    omega
  · obtain ⟨rest, hrest⟩ := drop_flatMap_range (fun j => length_keyImage (p.keys j)) hi
    show ConfigKey.ofImage (p.image.drop (9 + 44 * i)) = _
    rw [hheader, List.drop_append_of_le_length (by omega), hrest, List.append_assoc,
      ofImage_keyImage]
  · obtain ⟨rest, hrest⟩ := drop_flatMap_range (f := fun i => (p.values i).bytes)
      (fun j => (p.values j).length_eq) hi
    have hvalue : p.image.drop (9 + 44 * maxNumKv + 50 * i) = (p.values i).bytes ++ rest := by
      rw [Nat.add_assoc, hheader, List.drop_append, List.drop_eq_nil_of_le (by omega),
        List.nil_append, hkeys, Nat.add_sub_cancel_left]
      exact hrest
    refine Buffer.ext_bytes ?_
    show chars maxConfigBufferSizeBytes (p.image.drop (9 + 44 * maxNumKv + 50 * i)) = _
    rw [hvalue, chars_of_le (by simp [(p.values i).length_eq]),
      List.take_left' (p.values i).length_eq]

/-- The bytes that the checksum covers are read back. -/
theorem Loaded.body (h : Loaded p p') : p'.body = p.body := by
  have hkeys : (List.range maxNumKv).flatMap (fun i => (p'.keys i).image) =
      (List.range maxNumKv).flatMap fun i => (p.keys i).image := by
    rw [List.flatMap_def, List.flatMap_def]
    congr 1
    refine List.map_congr_left fun i hi => ?_
    rw [h.keys i (List.mem_range.mp hi)]
    have hlen := leBytes_leNat (leBytes 8 (p.keys i).keyLen)
    rw [leBytes_length] at hlen
    simp only [ConfigKey.image, hlen]
  have hvalues : (List.range maxNumKv).flatMap (fun i => (p'.values i).bytes) =
      (List.range maxNumKv).flatMap fun i => (p.values i).bytes := by
    rw [List.flatMap_def, List.flatMap_def]
    congr 1
    refine List.map_congr_left fun i hi => ?_
    rw [h.values i (List.mem_range.mp hi)]
  have hbody : ∀ q : ConfigPartition, q.body = leBytes 4 q.version.toNat ++ leBytes 1 q.numKeys ++
      (List.range maxNumKv).flatMap (fun i => (q.keys i).image) ++
        (List.range maxNumKv).flatMap fun i => (q.values i).bytes := fun _ => rfl
  rw [hbody, hbody, hkeys, hvalues, h.version, h.numKeys]

/-- The partitions that are saved are loaded from their bytes as they are loaded themselves. -/
theorem configInitBytes_flash (hnum : p.numKeys ≤ maxNumKv) (info : ConfigInfo) :
    configInitBytes info (some p.flash) = configInit info (some (.ofImage p.image)) := by
  have hloaded := ofImage_loaded hnum
  have hdrop : p.image.drop 4 = p.body := by
    rw [ConfigPartition.image, List.drop_left' (leBytes_length _ _)]
  have hcheck : (UInt32.ofNat (leNat (p.image.take 4)) == crc32Ieee (p.image.drop 4)) =
      ((ConfigPartition.ofImage p.image).crc32 ==
        crc32Ieee (ConfigPartition.ofImage p.image).body) := by
    rw [hdrop, hloaded.body]
    rfl
  have hload : loadAndVerifyNvmBytes info.ramBuffer (some p.flash) =
      loadAndVerifyNvmConfig info.ramBuffer (some (.ofImage p.image)) := Prod.ext rfl hcheck
  unfold configInitBytes configInit
  rw [hload]

theorem Loaded.sameContents (h : Loaded p p') (hsound : Sound p) : SameContents p p' := by
  have hlt : ∀ i < p.numKeys, i < maxNumKv := fun i hi => lt_of_lt_of_le hi hsound.numKeys_le
  refine ⟨h.numKeys, fun i hi => ?_, fun i hi => h.values i (hlt i hi)⟩
  have hlen : leNat (leBytes 8 (p.keys i).keyLen) = (p.keys i).keyLen := by
    have hle := hsound.keyLen_le i hi
    simp only [maxKeyLenBytes] at hle
    exact leNat_leBytes (by omega)
  rw [h.keys i (hlt i hi), hlen]

theorem SameContents.getStoredKeys (h : SameContents p p') :
    getStoredKeys p' = getStoredKeys p := by
  rw [Configuration.getStoredKeys, Configuration.getStoredKeys, h.numKeys]
  refine List.map_congr_left fun i hi => ?_
  rw [h.keys i (List.mem_range.mp hi)]

theorem SameContents.readings (h : SameContents p p') (cbor : TinyCbor) (key : List UInt8)
    (keyLen : Nat) : readings cbor p' key keyLen = readings cbor p key keyLen := by
  refine readings_congr cbor ?_
  rw [slotOf, slotOf, findKeyIdx_congr h.numKeys fun i hi => by rw [h.keys i hi]]
  cases hfind : findKeyIdx p key keyLen with
  | none => rfl
  | some idx =>
    rw [Option.map_some, Option.map_some, h.values idx (findKeyIdx_eq_some.mp hfind).1]

end Images

/-! ## Restarts -/

section Restarts
variable {cbor : TinyCbor} {info : ConfigInfo} {key : List UInt8} {keyLen : Nat}

/-- A saved partition passes the check of its checksum. -/
theorem configInit_saved (hsound : Sound info.ramBuffer) (ram : ConfigPartition) :
    SameContents info.ramBuffer (configInitBytes ⟨ram, false⟩
      (some (saveConfig info true).1.ramBuffer.flash)).ramBuffer := by
  have hsaved : Sound (saveConfig info true).1.ramBuffer := hsound.congr rfl fun _ _ => rfl
  have hloaded := ofImage_loaded hsaved.numKeys_le
  have hcrc : (ConfigPartition.ofImage (saveConfig info true).1.ramBuffer.image).crc32 =
      crc32Ieee (ConfigPartition.ofImage (saveConfig info true).1.ramBuffer.image).body := by
    rw [hloaded.crc32, hloaded.body]
    rfl
  obtain ⟨hnum, hkeys, hvalues⟩ := hloaded.sameContents hsaved
  rw [configInitBytes_flash hsaved.numKeys_le]
  generalize ConfigPartition.ofImage (saveConfig info true).1.ramBuffer.image = image at *
  have hinit : (configInit ⟨ram, false⟩ (some image)).ramBuffer = image := by
    simp only [configInit, loadAndVerifyNvmConfig, hcrc, beq_self_eq_true, if_true]
  rw [hinit]
  exact ⟨hnum, hkeys, hvalues⟩

/-- A value that fits is set under a new key. -/
theorem setCall_new (hfirst : cbor.HeaderFirst) (hlen : keyLen ≤ maxKeyLenBytes)
    (hroom : info.ramBuffer.numKeys < maxNumKv) (hvalid : isKeyValid key keyLen = true)
    (habsent : findKeyIdx info.ramBuffer key keyLen = none) {call : SetCall}
    (hfits : Fits cbor call) : (setCall cbor info key keyLen call).2 = true := by
  cases call with
  | typed item =>
    have hle : item.encoding.1.length + item.encoding.2.length ≤ maxConfigBufferSizeBytes := hfits
    have hok : (cbor.encode item (info.ramBuffer.values info.ramBuffer.numKeys)).2 = true := by
      rw [hfirst.encode, writeItem, if_pos hle]
    have hvalue : (info.ramBuffer.writeKeyBuf info.ramBuffer.numKeys key).values
        info.ramBuffer.numKeys = info.ramBuffer.values info.ramBuffer.numKeys := rfl
    cases item <;>
      simp only [setCall, setConfigUint, setConfigInt, setConfigFloat, setConfigString,
        setConfigBuffer, setConfig, prepareCborEncoder, if_neg (Nat.not_lt.mpr hlen),
        if_neg (Nat.not_le.mpr hroom), habsent, hvalid, if_true, hvalue, hok, Bool.not_true,
        Bool.false_eq_true, if_false]
  | cbor value =>
    obtain ⟨hpos, hsize, hinit, htype⟩ := hfits
    obtain ⟨valueType, htype'⟩ := Option.isSome_iff_exists.mp htype
    have hne : cbor.type value ≠ .invalid := by
      intro hinvalid
      rw [hinvalid] at htype
      simp [cborTypeToConfig] at htype
    have hsize' : ¬ (value.length > maxConfigBufferSizeBytes ∨ value.length = 0) := by omega
    simp only [setCall, setConfigCbor, if_neg (Nat.not_lt.mpr hlen), if_neg hsize', hinit,
      Bool.not_true, Bool.false_eq_true, if_false, if_neg hne, habsent, hvalid,
      if_neg (Nat.not_le.mpr hroom), htype']

end Restarts

/-- Bytes that cannot be read or do not match their checksum leave no keys. -/
theorem configInitBytes_rejected {read : Option (Buffer configPartitionSize)}
    (h : ∀ image, read = some image →
      UInt32.ofNat (leNat (image.bytes.take 4)) ≠ crc32Ieee (image.bytes.drop 4))
    (info : ConfigInfo) : (configInitBytes info read).ramBuffer.numKeys = 0 := by
  cases read with
  | none => rfl
  | some image =>
    have hcrc := h image rfl
    simp only [configInitBytes, loadAndVerifyNvmBytes, beq_eq_false_iff_ne.mpr hcrc,
      Bool.false_eq_true, if_false]

/-- What has been saved reads as before after a restart, with the keys in their order. Bytes that
cannot be read or do not match their checksum leave an empty partition, in which every valid key can
be set to every value that fits. -/
theorem config_persistent (cbor : TinyCbor) (hinverse : cbor.Inverse) (hlocal : cbor.HeaderLocal)
    (hfirst : cbor.HeaderFirst) :
    (∀ s, Reachable cbor s → ∀ partition ram, (saveConfig (s.configs partition) true).2 = true ∧
      let saved := (saveConfig (s.configs partition) true).1.ramBuffer
      let loaded := (configInitBytes ⟨ram, false⟩ (some saved.flash)).ramBuffer
      getStoredKeys loaded = getStoredKeys (s.configs partition).ramBuffer ∧
        ∀ key keyLen, readings cbor loaded key keyLen =
          readings cbor (s.configs partition).ramBuffer key keyLen) ∧
    ∀ ram read, (∀ image, read = some image →
        UInt32.ofNat (leNat (image.bytes.take 4)) ≠ crc32Ieee (image.bytes.drop 4)) →
      let info := configInitBytes ⟨ram, false⟩ read
      info.ramBuffer.numKeys = 0 ∧
        ∀ key keyLen call, keyLen ≤ maxKeyLenBytes → isKeyValid key keyLen = true →
          Fits cbor call → (setCall cbor info key keyLen call).2 = true ∧
            (Representable key keyLen → SetGet cbor info key keyLen call) := by
  refine ⟨fun s hs partition ram => ⟨rfl, ?_⟩, fun ram read hread => ?_⟩
  · have hsame := configInit_saved (hs.sound.configs partition) ram
    exact ⟨hsame.getStoredKeys, hsame.readings cbor⟩
  · have hempty := configInitBytes_rejected hread ⟨ram, false⟩
    refine ⟨hempty, fun key keyLen call hlen hvalid hfits => ⟨?_, fun hrep => ?_⟩⟩
    · refine setCall_new hfirst hlen (by rw [hempty]; decide) hvalid ?_ hfits
      refine findKeyIdx_eq_none.mpr fun i hi => ?_
      rw [hempty] at hi
      omega
    · exact setGet_of_representable hinverse hlocal (.of_empty hempty) hrep call

/-- Flash that has been erased. -/
def erased : Buffer configPartitionSize := ⟨List.replicate configPartitionSize 0xFF, by simp⟩

/-- A key that was saved is read after a restart, and can be set again if the flash is erased. -/
theorem config_persistent_key :
    let info := (setConfigUint tinyCbor (freshSystem.configs .user) [0x61] 1 5).1
    let flash := (saveConfig info true).1.ramBuffer.flash
    getConfigUint tinyCbor (configInitBytes ⟨zeroPartition, false⟩ (some flash)).ramBuffer
      [0x61] 1 = some 5 ∧
    (setConfigUint tinyCbor (configInitBytes ⟨info.ramBuffer, false⟩ (some erased)) [0x61] 1 6).2 =
      true := by
  intro info flash
  have hpersist := config_persistent tinyCbor tinyCbor_inverse tinyCbor_headerLocal
    tinyCbor_headerFirst
  refine ⟨?_, ?_⟩
  · have hreach : Reachable tinyCbor (step tinyCbor freshSystem
        (.store .user (.set [0x61] 1 (.typed (.uint 5))))) :=
      Reachable.step ⟨freshSystem, [], freshSystem_initial, rfl⟩ _
    have hread := congrArg Readings.uint
      ((hpersist.1 _ hreach .user zeroPartition).2.2 [0x61] 1)
    exact hread.trans (by decide +kernel)
  · have hfits : Fits tinyCbor (.typed (.uint 6)) := by
      rw [Fits]
      decide
    have hrejected : ∀ image, some erased = some image →
        UInt32.ofNat (leNat (image.bytes.take 4)) ≠ crc32Ieee (image.bytes.drop 4) := by
      rintro image ⟨⟩
      decide +kernel
    exact ((hpersist.2 info.ramBuffer (some erased) hrejected).2 [0x61] 1
      (.typed (.uint 6)) (by decide) (by decide) hfits).1

end BmCore.Configuration
