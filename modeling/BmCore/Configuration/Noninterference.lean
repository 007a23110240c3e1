import BmCore.Configuration.SetGet

/-!
# What was in a slot before

`set_config_cbor` copies a value to the front of a slot and looks at the header of the value only,
while the getters parse the whole slot. What is read back depends on the value alone, except for a
string that begins in the value and ends behind it, but still in the slot.
-/
namespace BmCore.Configuration
open Library Cbor

/-- The slot that a key has or will have. -/
def slotFor (p : ConfigPartition) (key : List UInt8) (keyLen : Nat) : Nat :=
  (findKeyIdx p key keyLen).getD p.numKeys

/-- The partitions differ in one slot at most. -/
structure SameBut (slot : Nat) (p p' : ConfigPartition) : Prop where
  numKeys : p'.numKeys = p.numKeys
  keys : p'.keys = p.keys
  values : ∀ i, i ≠ slot → p'.values i = p.values i

/-- The readings but for `get_config_cbor`, which returns the whole slot. -/
structure SameReadings (r r' : Readings) : Prop where
  uint : r'.uint = r.uint
  int : r'.int = r.int
  float : r'.float = r.float
  string : r'.string = r.string
  buffer : r'.buffer = r.buffer
  valueSize : r'.valueSize = r.valueSize

/-- What is read back after `set_config_cbor` does not depend on the slot before. -/
def Noninterfering (cbor : TinyCbor) (value : List UInt8) : Prop :=
  ∀ s s', Reachable cbor s → Reachable cbor s' → ∀ partition key keyLen,
    let info := s.configs partition
    let info' := s'.configs partition
    SameBut (slotFor info.ramBuffer key keyLen) info.ramBuffer info'.ramBuffer →
    (setConfigCbor cbor info key keyLen value).2 = true →
    (setConfigCbor cbor info' key keyLen value).2 = true →
    SameReadings
      (readings cbor (setConfigCbor cbor info key keyLen value).1.ramBuffer key keyLen)
      (readings cbor (setConfigCbor cbor info' key keyLen value).1.ramBuffer key keyLen)

/-- The value is the beginning of a string that ends behind it, but in the slot. -/
def Straddles (cbor : TinyCbor) (value : List UInt8) : Prop :=
  cbor.parserInit value = true ∧ (cbor.type value = .textString ∨ cbor.type value = .byteString) ∧
    ∃ need, stringNeed value = some need ∧ value.length < need ∧ need ≤ maxConfigBufferSizeBytes

/-! ## Values that end in time -/

section Readings
variable {cbor : TinyCbor} {value r r' : List UInt8} {p p' : ConfigPartition} {key : List UInt8}
  {keyLen : Nat} {slot : ConfigValue}

/-- What is read from a slot that begins with a value, for the types that are read from the
header. -/
theorem readings_of_header (hlocal : cbor.HeaderLocal) (hinit : cbor.parserInit value = true)
    (hparser : prepareCborParser cbor p key keyLen = some slot) (hbytes : slot.bytes = value ++ r) :
    getConfigUint cbor p key keyLen = (if cbor.type value ≠ .unsignedInteger then none
      else (cbor.getUint64 value).map (·.toUInt32)) ∧
    getConfigInt cbor p key keyLen = (if !cbor.isInteger value then none
      else (cbor.getInt64 value).map (·.toInt32)) ∧
    getConfigFloat cbor p key keyLen = (if cbor.type value ≠ .float then none
      else cbor.getFloat value) := by
  have htype : cbor.type (value ++ r) = cbor.type value := hlocal.type _ _ hinit
  have hinteger : cbor.isInteger (value ++ r) = cbor.isInteger value := by
    rw [TinyCbor.isInteger, TinyCbor.isInteger, htype]
  simp only [getConfigUint, getConfigInt, getConfigFloat, hparser, hbytes, htype, hinteger,
    Option.bind_eq_bind, Option.bind_some]
  refine ⟨?_, ?_, ?_⟩
  · split
    · rfl
    · rename_i h
      rw [hlocal.getUint64 _ _ hinit (not_not.mp h)]
  · split
    · rfl
    · rename_i h
      rw [hlocal.getInt64 _ _ hinit (by simpa using h)]
  · split
    · rfl
    · rename_i h
      rw [hlocal.getFloat _ _ hinit (not_not.mp h)]

theorem valueSize_of_header (hlocal : cbor.HeaderLocal) (hinit : cbor.parserInit value = true)
    (hparser : prepareCborParser cbor p key keyLen = some slot) (hbytes : slot.bytes = value ++ r) :
    getValueSize cbor p key keyLen = (match cborTypeToConfig (cbor.type value) with
      | none => none
      | some .uint32 => some 4
      | some .int32 => some 4
      | some .float => some 4
      | some .str => cbor.getStringLength value
      | some .bytes => cbor.getStringLength value
      | some .array => cbor.getArrayLength value) := by
  have htype : cbor.type (value ++ r) = cbor.type value := hlocal.type _ _ hinit
  simp only [getValueSize, hparser, hbytes, htype, Option.bind_eq_bind, Option.bind_some]
  cases h : cbor.type value with
  | textString => exact hlocal.getStringLength _ _ hinit (.inl h)
  | byteString => exact hlocal.getStringLength _ _ hinit (.inr h)
  | array => exact hlocal.getArrayLength _ _ hinit h
  | unsignedInteger => rfl
  | negativeInteger => rfl
  | float => rfl
  | other => rfl
  | invalid => rfl

/-- Strings are read as they are in the slot. -/
theorem strings_of_slot (hlocal : cbor.HeaderLocal) (hstrings : cbor.ReadsStrings)
    (hinit : cbor.parserInit value = true)
    (hparser : prepareCborParser cbor p key keyLen = some slot) (hbytes : slot.bytes = value ++ r)
    (size : Nat) :
    getConfigString cbor p key keyLen size = (if cbor.type value ≠ .textString then none
      else (string? (value ++ r)).filter (·.length ≤ size)) ∧
    getConfigBuffer cbor p key keyLen size = (if cbor.type value ≠ .byteString then none
      else (string? (value ++ r)).filter (·.length ≤ size)) := by
  have hinit' : cbor.parserInit (value ++ r) = true := hlocal.init _ _ hinit
  have htype : cbor.type (value ++ r) = cbor.type value := hlocal.type _ _ hinit
  simp only [getConfigString, getConfigBuffer, hparser, hbytes, htype, Option.bind_eq_bind,
    Option.bind_some]
  constructor
  · split
    · rfl
    · rename_i h
      exact (hstrings.text _ hinit' (htype.trans (not_not.mp h))).2 size
  · split
    · rfl
    · rename_i h
      exact (hstrings.bytes _ hinit' (htype.trans (not_not.mp h))).2 size

/-- What is taken for a string begins with the header of one. -/
theorem exists_head (hstrings : cbor.ReadsStrings) (hinit : cbor.parserInit value = true)
    (hstring : cbor.type value = .textString ∨ cbor.type value = .byteString) :
    ∃ h, head? value = some h ∧ h.major ≠ 0 := by
  rcases hstring with htype | htype
  · obtain ⟨h, hhead, hmajor⟩ := (hstrings.text _ hinit htype).1
    exact ⟨h, hhead, by omega⟩
  · obtain ⟨h, hhead, hmajor⟩ := (hstrings.bytes _ hinit htype).1
    exact ⟨h, hhead, by omega⟩

/-- A string that does not straddle the end of the value is the same in both slots. -/
theorem string?_of_not_straddles (hstrings : cbor.ReadsStrings)
    (hinit : cbor.parserInit value = true) (hnot : ¬ Straddles cbor value)
    (hlength : r.length = r'.length) (hfull : value.length + r.length = maxConfigBufferSizeBytes)
    (hstring : cbor.type value = .textString ∨ cbor.type value = .byteString) :
    string? (value ++ r) = string? (value ++ r') := by
  obtain ⟨h, hhead, -⟩ := exists_head hstrings hinit hstring
  refine string?_congr hhead hlength fun d hd => ?_
  rcases Nat.lt_or_ge value.length d with hlt | hge
  · refine .inr (Nat.lt_of_not_le fun hle => ?_)
    exact hnot ⟨hinit, hstring, d, hd, hlt, hfull ▸ hle⟩
  · exact .inl hge

/-- What is read from two slots that begin with a value. -/
theorem sameReadings_of_slots {slot' : ConfigValue} (hlocal : cbor.HeaderLocal)
    (hstrings : cbor.ReadsStrings) (hinit : cbor.parserInit value = true)
    (hnot : ¬ Straddles cbor value) (hlen : keyLen ≤ maxKeyLenBytes)
    (hslot : slotOf p key keyLen = some slot) (hslot' : slotOf p' key keyLen = some slot')
    (hbytes : slot.bytes = value ++ r) (hbytes' : slot'.bytes = value ++ r') :
    SameReadings (readings cbor p key keyLen) (readings cbor p' key keyLen) := by
  have hfull : value.length + r.length = maxConfigBufferSizeBytes := by
    rw [← List.length_append, ← hbytes, slot.length_eq]
  have hfull' : value.length + r'.length = maxConfigBufferSizeBytes := by
    rw [← List.length_append, ← hbytes', slot'.length_eq]
  have hparser : prepareCborParser cbor p key keyLen = some slot :=
    (prepareCborParser_eq_some cbor).mpr ⟨hlen, hslot, hbytes ▸ hlocal.init _ _ hinit⟩
  have hparser' : prepareCborParser cbor p' key keyLen = some slot' :=
    (prepareCborParser_eq_some cbor).mpr ⟨hlen, hslot', hbytes' ▸ hlocal.init _ _ hinit⟩
  obtain ⟨huint, hint, hfloat⟩ := readings_of_header hlocal hinit hparser hbytes
  obtain ⟨huint', hint', hfloat'⟩ := readings_of_header hlocal hinit hparser' hbytes'
  have hsame : cbor.type value = .textString ∨ cbor.type value = .byteString →
      string? (value ++ r) = string? (value ++ r') :=
    string?_of_not_straddles hstrings hinit hnot (by omega) hfull
  refine ⟨huint'.trans huint.symm, hint'.trans hint.symm, hfloat'.trans hfloat.symm,
    funext fun size => ?_, funext fun size => ?_, ?_⟩
  · dsimp only [readings]
    rw [(strings_of_slot hlocal hstrings hinit hparser hbytes size).1,
      (strings_of_slot hlocal hstrings hinit hparser' hbytes' size).1]
    split
    · rfl
    · rename_i h
      rw [hsame (.inl (not_not.mp h))]
  · dsimp only [readings]
    rw [(strings_of_slot hlocal hstrings hinit hparser hbytes size).2,
      (strings_of_slot hlocal hstrings hinit hparser' hbytes' size).2]
    split
    · rfl
    · rename_i h
      rw [hsame (.inr (not_not.mp h))]
  · exact (valueSize_of_header hlocal hinit hparser' hbytes').trans
      (valueSize_of_header hlocal hinit hparser hbytes).symm

end Readings

/-! ## Two stores -/

section Stores
variable {cbor : TinyCbor} {info info' : ConfigInfo} {key value : List UInt8} {keyLen : Nat}

/-- A key is found after it has been set if it was there or is not cut. -/
def Found (p : ConfigPartition) (key : List UInt8) (keyLen : Nat) : Prop :=
  (findKeyIdx p key keyLen).isSome = true ∨
    ((cString key).take (maxKeyLenBytes - 1)).take keyLen = (cString key).take keyLen

/-- The slot of a key after a successful `set_config_cbor`. -/
theorem slotOf_setConfigCbor (h : Sound info.ramBuffer)
    (htrue : (setConfigCbor cbor info key keyLen value).2 = true) :
    let p := (setConfigCbor cbor info key keyLen value).1.ramBuffer
    let old := info.ramBuffer.values (slotFor info.ramBuffer key keyLen)
    keyLen ≤ maxKeyLenBytes ∧ cbor.parserInit value = true ∧
      value.length ≤ maxConfigBufferSizeBytes ∧
      (Found info.ramBuffer key keyLen → slotOf p key keyLen = some (old.put value)) ∧
      (¬ Found info.ramBuffer key keyLen → slotOf p key keyLen = none) := by
  have hset := setConfigCbor_sets cbor info key keyLen value
  generalize setConfigCbor cbor info key keyLen value = result at hset htrue
  cases hset with
  | refused => simp at htrue
  | abandoned => simp at htrue
  | overrun => simp at htrue
  | replaced idx k v keyLen_le found keyLen_eq keyBuf stores =>
    obtain ⟨hsize, hinit, -, rfl⟩ := stores
    have hslot : slotFor info.ramBuffer key keyLen = idx := by rw [slotFor, found, Option.getD_some]
    have hfound : Found info.ramBuffer key keyLen := .inl (by rw [found]; rfl)
    have hfind : findKeyIdx (info.ramBuffer.writeEntry idx k
        ((info.ramBuffer.values idx).put value)) key keyLen = some idx := by
      rw [← found]
      apply findKeyIdx_congr
      · rfl
      intro i hi
      rw [writeEntry_keys]
      rcases eq_or_ne i idx with rfl | hne
      · rw [Function.update_self, name_rewritten h found keyLen_eq keyBuf]
      · rw [Function.update_of_ne hne]
    refine ⟨keyLen_le, hinit, hsize, fun _ => ?_, fun hnot => absurd hfound hnot⟩
    rw [slotOf, hfind, Option.map_some, writeEntry_values, Function.update_self, hslot]
  | appended k v keyLen_le absent valid room keyLen_eq keyBuf stores =>
    obtain ⟨hsize, hinit, -, rfl⟩ := stores
    have hslot : slotFor info.ramBuffer key keyLen = info.ramBuffer.numKeys := by
      rw [slotFor, absent, Option.getD_none]
    have hname : k.name = (keyLen, ((cString key).take (maxKeyLenBytes - 1)).take keyLen) := by
      rw [ConfigKey.name, nameOf, cString_stored keyBuf, keyLen_eq]
    have hnew : (Function.update info.ramBuffer.keys info.ramBuffer.numKeys k
        info.ramBuffer.numKeys).name = k.name := by rw [Function.update_self]
    have hold : ∀ i < info.ramBuffer.numKeys,
        (Function.update info.ramBuffer.keys info.ramBuffer.numKeys k i).name ≠
          nameOf key keyLen := by
      intro i hi
      rw [Function.update_of_ne (Nat.ne_of_lt hi)]
      exact findKeyIdx_eq_none.mp absent i hi
    refine ⟨keyLen_le, hinit, hsize, fun hfound => ?_, fun hnot => ?_⟩
    · have htake := hfound.resolve_left (by simp [absent])
      rw [slotOf, findKeyIdx_eq_some.mpr ⟨Nat.lt_succ_self _, ?_, hold⟩, Option.map_some, hslot]
      · exact congrArg some (Function.update_self ..)
      · exact hnew.trans (hname.trans (Prod.ext rfl htake))
    · rw [slotOf, findKeyIdx_eq_none.mpr fun i hi => ?_, Option.map_none]
      rcases Nat.lt_succ_iff_lt_or_eq.mp hi with hlt | rfl
      · exact hold i hlt
      · intro hsame
        exact hnot (.inr (Prod.mk.inj (hname.symm.trans (hnew.symm.trans hsame))).2)

theorem SameReadings.of_eq {r r' : Readings} (h : r' = r) : SameReadings r r' := by
  subst h
  exact ⟨rfl, rfl, rfl, rfl, rfl, rfl⟩

theorem noninterfering_of_not_straddles (hlocal : cbor.HeaderLocal) (hstrings : cbor.ReadsStrings)
    (hnot : ¬ Straddles cbor value) : Noninterfering cbor value := by
  intro s s' hs hs' partition key keyLen info info' hsame htrue htrue'
  have hfind : findKeyIdx info'.ramBuffer key keyLen = findKeyIdx info.ramBuffer key keyLen :=
    findKeyIdx_congr hsame.numKeys (fun i _ => by rw [hsame.keys]) key keyLen
  obtain ⟨hlen, hinit, hsize, hslot, hnone⟩ :=
    slotOf_setConfigCbor (hs.sound.configs partition) htrue
  obtain ⟨-, -, -, hslot', hnone'⟩ := slotOf_setConfigCbor (hs'.sound.configs partition) htrue'
  have hiff : Found info'.ramBuffer key keyLen ↔ Found info.ramBuffer key keyLen := by
    rw [Found, Found, hfind]
  by_cases hfound : Found info.ramBuffer key keyLen
  · exact sameReadings_of_slots hlocal hstrings hinit hnot hlen (hslot hfound)
      (hslot' (hiff.mpr hfound)) (Buffer.put_bytes _ hsize) (Buffer.put_bytes _ hsize)
  · refine .of_eq (readings_congr cbor ?_)
    exact (hnone' (mt hiff.mp hfound)).trans (hnone hfound).symm

end Stores

/-! ## Values that end too late -/

/-- A device without keys, with some bytes in the first slot. -/
def filledSystem (old : ConfigValue) : System :=
  ⟨fun _ => ⟨{ zeroPartition with values := Function.update zeroPartition.values 0 old }, false⟩,
    fun _ => none⟩

theorem filledSystem_reachable (cbor : TinyCbor) (old : ConfigValue) :
    Reachable cbor (filledSystem old) :=
  ⟨filledSystem old, [], ⟨fun _ => rfl, fun _ => rfl, fun _ _ h => by simp [filledSystem] at h⟩,
  rfl⟩

theorem filledSystem_sameBut (old old' : ConfigValue) :
    SameBut (slotFor ((filledSystem old).configs .user).ramBuffer [0x61] 1)
      ((filledSystem old).configs .user).ramBuffer
      ((filledSystem old').configs .user).ramBuffer := by
  refine ⟨rfl, rfl, fun i hi => ?_⟩
  have hi' : i ≠ 0 := hi
  simp only [filledSystem, Function.update_of_ne hi']

section Late
variable {cbor : TinyCbor} {value : List UInt8}

/-- `set_config_cbor` accepts a string by its header. -/
theorem setConfigCbor_filled (hstrings : cbor.ReadsStrings) (h : Straddles cbor value)
    (old : ConfigValue) :
    (setConfigCbor cbor ((filledSystem old).configs .user) [0x61] 1 value).2 = true := by
  obtain ⟨hinit, htype, need, -, hlt, hle⟩ := h
  have hpos : 1 ≤ value.length := by
    obtain ⟨h, hhead, -⟩ := exists_head hstrings hinit htype
    obtain ⟨hone, hsize⟩ := head?_size hhead
    omega
  have hnone : findKeyIdx ((filledSystem old).configs .user).ramBuffer [0x61] 1 = none := rfl
  have hvalid : isKeyValid [0x61] 1 = true := by decide
  have hroom : ¬ ((filledSystem old).configs .user).ramBuffer.numKeys ≥ maxNumKv :=
    Nat.not_le.mpr (by decide : 0 < maxNumKv)
  unfold setConfigCbor
  rw [if_neg (by decide), if_neg (by omega), if_neg (by simp [hinit])]
  rcases htype with htype | htype <;>
    simp only [htype, reduceCtorEq, if_false, hnone, hvalid, Bool.not_true, Bool.false_eq_true,
      hroom, cborTypeToConfig]

theorem not_noninterfering_of_straddles (hlocal : cbor.HeaderLocal) (hstrings : cbor.ReadsStrings)
    (h : Straddles cbor value) : ¬ Noninterfering cbor value := by
  obtain ⟨hinit, htype, need, hneed, hlt, hle⟩ := id h
  obtain ⟨head, hhead, hmajor⟩ := exists_head hstrings hinit htype
  obtain ⟨r, r', hr, hr', hne⟩ := string?_ne (k := maxConfigBufferSizeBytes - value.length) hhead
    hmajor hneed hlt (by omega)
  -- the rest of a slot behind the value
  let filled (rest : List UInt8) (hrest : rest.length = maxConfigBufferSizeBytes - value.length) :
    ConfigValue := ⟨List.replicate value.length 0 ++ rest, by simp [hrest]; omega⟩
  have hslot : ∀ rest hrest, ∃ slot : ConfigValue, slot.bytes = value ++ rest ∧
      prepareCborParser cbor (setConfigCbor cbor ((filledSystem (filled rest hrest)).configs .user)
        [0x61] 1 value).1.ramBuffer [0x61] 1 = some slot := by
    intro rest hrest
    have hreach := filledSystem_reachable cbor (filled rest hrest)
    obtain ⟨hlen, -, hsize, hfound, -⟩ := slotOf_setConfigCbor (hreach.sound.configs .user)
      (setConfigCbor_filled hstrings h (filled rest hrest))
    have hbytes : ((filled rest hrest).put value).bytes = value ++ rest := by
      rw [Buffer.put_bytes _ hsize]
      simp [filled]
    refine ⟨_, hbytes, (prepareCborParser_eq_some cbor).mpr ⟨hlen, hfound (.inr rfl), ?_⟩⟩
    rw [hbytes]
    exact hlocal.init _ _ hinit
  intro hall
  have hsame := hall _ _ (filledSystem_reachable cbor (filled r hr))
    (filledSystem_reachable cbor (filled r' hr')) .user [0x61] 1
    (filledSystem_sameBut ..) (setConfigCbor_filled hstrings h _)
    (setConfigCbor_filled hstrings h _)
  obtain ⟨slot, hbytes, hparser⟩ := hslot r hr
  obtain ⟨slot', hbytes', hparser'⟩ := hslot r' hr'
  -- a buffer that is long enough for both strings
  let size := ((string? (value ++ r)).getD []).length + ((string? (value ++ r')).getD []).length
  have hall' : ∀ o : Option (List UInt8), (o.getD []).length ≤ size →
      o.filter (·.length ≤ size) = o := by
    intro o ho
    cases o with
    | none => rfl
    | some l => simpa [Option.filter] using ho
  obtain ⟨htext, hbuffer⟩ := strings_of_slot hlocal hstrings hinit hparser hbytes size
  obtain ⟨htext', hbuffer'⟩ := strings_of_slot hlocal hstrings hinit hparser' hbytes' size
  rw [hall' _ (Nat.le_add_right ..)] at htext hbuffer
  rw [hall' _ (Nat.le_add_left ..)] at htext' hbuffer'
  rcases htype with htype | htype
  · rw [if_neg (not_not.mpr htype)] at htext htext'
    exact hne (htext.symm.trans ((congrFun hsame.string size).symm.trans htext'))
  · rw [if_neg (not_not.mpr htype)] at hbuffer hbuffer'
    exact hne (hbuffer.symm.trans ((congrFun hsame.buffer size).symm.trans hbuffer'))

end Late

/-- What `get_config_uint`, `int`, `float`, `string`, `buffer` and `get_value_size` return after
`set_config_cbor` depends on the value alone, in every two reachable stores and for every key,
exactly if the value is not the beginning of a string that ends behind it in the slot. -/
theorem noninterfering_iff (cbor : TinyCbor) (hlocal : cbor.HeaderLocal)
    (hstrings : cbor.ReadsStrings) (value : List UInt8) :
    Noninterfering cbor value ↔ ¬ Straddles cbor value :=
  ⟨fun hall hstraddles => not_noninterfering_of_straddles hlocal hstrings hstraddles hall,
    noninterfering_of_not_straddles hlocal hstrings⟩

/-- A complete string. -/
theorem noninterfering_hi : Noninterfering tinyCbor [0x62, 0x68, 0x69] := by
  refine (noninterfering_iff tinyCbor tinyCbor_headerLocal tinyCbor_readsStrings _).mpr ?_
  rintro ⟨-, -, need, hneed, hlt, -⟩
  have hthree : stringNeed [0x62, 0x68, 0x69] = some 3 := by decide +kernel
  rw [hthree] at hneed
  obtain rfl := Option.some.inj hneed
  exact absurd hlt (by decide)

/-- The header of a string of two bytes, without the string. -/
theorem header_interferes :
    let zeros : ConfigValue := ⟨List.replicate 50 0, rfl⟩
    let ones : ConfigValue := ⟨List.replicate 50 1, rfl⟩
    let read (old : ConfigValue) := getConfigString tinyCbor (setConfigCbor tinyCbor
      ((filledSystem old).configs .user) [0x61] 1 [0x62]).1.ramBuffer [0x61] 1 50
    read zeros = some [0, 0] ∧ read ones = some [1, 1] ∧ ¬ Noninterfering tinyCbor [0x62] := by
  intro zeros ones read
  have hzeros : read zeros = some [0, 0] := by decide +kernel
  have hones : read ones = some [1, 1] := by decide +kernel
  refine ⟨hzeros, hones, fun hall => ?_⟩
  have hsame := hall _ _ (filledSystem_reachable tinyCbor zeros)
    (filledSystem_reachable tinyCbor ones) .user [0x61] 1
    (filledSystem_sameBut ..) (by decide +kernel) (by decide +kernel)
  have hread : read ones = read zeros := congrFun hsame.string 50
  rw [hzeros, hones] at hread
  simp at hread

end BmCore.Configuration
