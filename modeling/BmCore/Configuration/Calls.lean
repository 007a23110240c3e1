import BmCore.Configuration.Store

/-!
# What the calls do

A key is known by its name: its length, and its bytes up to a NUL. `find_key_idx` finds the first
key of a name. What the getters return depends on the slot of this key alone, and a setter writes
one key with its slot at most. `Sets` lists what it may do.
-/
namespace BmCore.Configuration
open Library

/-! ## Names -/

/-- What `find_key_idx` compares of a key. -/
abbrev Name := Nat × List UInt8

def nameOf (key : List UInt8) (keyLen : Nat) : Name := (keyLen, (cString key).take keyLen)

def ConfigKey.name (k : ConfigKey) : Name := nameOf k.keyBuf.bytes k.keyLen

section Names
variable {p p' : ConfigPartition} {key : List UInt8} {keyLen idx : Nat}

theorem matches_iff (k : ConfigKey) : k.matches key keyLen = true ↔ k.name = nameOf key keyLen := by
  rw [ConfigKey.matches, Bool.and_eq_true, beq_iff_eq, strncmpEq_iff, ConfigKey.name, nameOf,
    nameOf,
    Prod.mk.injEq]
  constructor
  · rintro ⟨rfl, h⟩
    exact ⟨rfl, h.symm⟩
  · rintro ⟨rfl, h⟩
    exact ⟨rfl, h.symm⟩

theorem findKeyIdx_eq_some : findKeyIdx p key keyLen = some idx ↔ idx < p.numKeys ∧
    (p.keys idx).name = nameOf key keyLen ∧ ∀ i < idx, (p.keys i).name ≠ nameOf key keyLen := by
  rw [findKeyIdx, List.find?_range_eq_some, matches_iff, List.mem_range]
  constructor
  · rintro ⟨hname, hidx, hbefore⟩
    refine ⟨hidx, hname, fun i hi hi' => ?_⟩
    simpa [(matches_iff (p.keys i)).mpr hi'] using hbefore i hi
  · rintro ⟨hidx, hname, hbefore⟩
    refine ⟨hname, hidx, fun i hi => ?_⟩
    simpa using fun h => hbefore i hi ((matches_iff _).mp h)

theorem findKeyIdx_eq_none : findKeyIdx p key keyLen = none ↔
    ∀ i < p.numKeys, (p.keys i).name ≠ nameOf key keyLen := by
  rw [findKeyIdx, List.find?_eq_none]
  simp only [List.mem_range, matches_iff]

/-- The index of a name depends on the names of the keys alone. -/
theorem findKeyIdx_congr (hnum : p'.numKeys = p.numKeys)
    (hnames : ∀ i < p.numKeys, (p'.keys i).name = (p.keys i).name) (key : List UInt8)
    (keyLen : Nat) : findKeyIdx p' key keyLen = findKeyIdx p key keyLen := by
  cases h : findKeyIdx p key keyLen with
  | none =>
    rw [findKeyIdx_eq_none] at h ⊢
    intro i hi
    rw [hnum] at hi
    rw [hnames i hi]
    exact h i hi
  | some idx =>
    rw [findKeyIdx_eq_some] at h ⊢
    obtain ⟨hidx, hname, hbefore⟩ := h
    refine ⟨hnum ▸ hidx, hnames idx hidx ▸ hname, fun i hi => ?_⟩
    rw [hnames i (by omega)]
    exact hbefore i hi

/-- A name is known from the bytes of the key if these have no NUL before the last. -/
theorem nameOf_inj {key key' : List UInt8} {keyLen keyLen' : Nat}
    (h : 0 ∉ (chars keyLen key).dropLast) (hname : nameOf key' keyLen' = nameOf key keyLen) :
    keyLen' = keyLen ∧ chars keyLen' key' = chars keyLen key := by
  obtain ⟨rfl, hstring⟩ := Prod.mk.inj hname
  rw [← cString_chars, ← cString_chars] at hstring
  exact ⟨rfl, (eq_of_cString_eq h (by simp) hstring.symm).symm⟩

end Names

/-! ## Slots -/

/-- The slot of a key. -/
def slotOf (p : ConfigPartition) (key : List UInt8) (keyLen : Nat) : Option ConfigValue :=
  (findKeyIdx p key keyLen).map p.values

section Slots
variable {p p' : ConfigPartition} {key : List UInt8} {keyLen : Nat} (cbor : TinyCbor)

theorem prepareCborParser_eq : prepareCborParser cbor p key keyLen =
    if keyLen > maxKeyLenBytes then none
    else (slotOf p key keyLen).filter fun value => cbor.parserInit value.bytes := by
  unfold prepareCborParser slotOf
  split
  · rfl
  cases findKeyIdx p key keyLen <;> rfl

theorem prepareCborParser_eq_some {value : ConfigValue} :
    prepareCborParser cbor p key keyLen = some value ↔ keyLen ≤ maxKeyLenBytes ∧
      slotOf p key keyLen = some value ∧ cbor.parserInit value.bytes = true := by
  rw [prepareCborParser_eq]
  split
  · rename_i h
    simp only [reduceCtorEq, false_iff, not_and]
    omega
  · rename_i h
    rw [Option.filter_eq_some_iff]
    simp only [Nat.le_of_not_lt h, true_and]

theorem getConfigCbor_eq (valueLen : Nat) : getConfigCbor cbor p key keyLen valueLen =
    (prepareCborParser cbor p key keyLen).bind fun it => if cbor.type it.bytes = .invalid then none
      else if valueLen < maxConfigBufferSizeBytes then none else some it.bytes := by
  unfold getConfigCbor prepareCborParser
  split
  · rfl
  cases findKeyIdx p key keyLen with
  | none => rfl
  | some idx =>
    dsimp only
    split <;> rfl

/-- Equal slots give equal readings. -/
theorem readings_congr (h : slotOf p' key keyLen = slotOf p key keyLen) :
    readings cbor p' key keyLen = readings cbor p key keyLen := by
  have hparser : prepareCborParser cbor p' key keyLen = prepareCborParser cbor p key keyLen := by
    rw [prepareCborParser_eq, prepareCborParser_eq, h]
  have hcbor : getConfigCbor cbor p' key keyLen = getConfigCbor cbor p key keyLen := by
    funext valueLen
    rw [getConfigCbor_eq, getConfigCbor_eq, hparser]
  have hstring : getConfigString cbor p' key keyLen = getConfigString cbor p key keyLen := by
    funext valueLen
    rw [getConfigString, getConfigString, hparser]
  have hbuffer : getConfigBuffer cbor p' key keyLen = getConfigBuffer cbor p key keyLen := by
    funext valueLen
    rw [getConfigBuffer, getConfigBuffer, hparser]
  rw [readings, readings, getConfigUint, getConfigUint, getConfigInt, getConfigInt, getConfigFloat,
    getConfigFloat, getValueSize, getValueSize, hparser, hcbor, hstring, hbuffer]

end Slots

/-! ## Setters -/

/-- A call of a setter with its value. -/
inductive SetCall where
  | typed (item : CborItem)
  | cbor (value : List UInt8)

def setCall (cbor : TinyCbor) (info : ConfigInfo) (key : List UInt8) (keyLen : Nat) :
    SetCall → ConfigInfo × Bool
  | .typed (.uint value) => setConfigUint cbor info key keyLen value
  | .typed (.int value) => setConfigInt cbor info key keyLen value
  | .typed (.float value) => setConfigFloat cbor info key keyLen value
  | .typed (.text value) => setConfigString cbor info key keyLen value
  | .typed (.bytes value) => setConfigBuffer cbor info key keyLen value
  | .cbor value => setConfigCbor cbor info key keyLen value

/-- What a successful call makes of a slot. -/
def Stores (cbor : TinyCbor) (old new : ConfigValue) : SetCall → Prop
  | .typed item => cbor.encode item old = (new, true)
  | .cbor value => value.length ≤ maxConfigBufferSizeBytes ∧ cbor.parserInit value = true ∧
    (cborTypeToConfig (cbor.type value)).isSome = true ∧ new = old.put value

/-- One key with its value is written. -/
def ConfigPartition.writeEntry (p : ConfigPartition) (idx : Nat) (key : ConfigKey)
    (value : ConfigValue) : ConfigPartition :=
  { p with keys := Function.update p.keys idx key, values := Function.update p.values idx value }

/-- What a setter does. -/
inductive Sets (cbor : TinyCbor) (info : ConfigInfo) (key : List UInt8) (keyLen : Nat)
    (call : SetCall) : ConfigInfo × Bool → Prop
  | refused : Sets cbor info key keyLen call (info, false)
  /-- A new key has been written behind the others, but not its length. -/
  | abandoned (k : ConfigKey) (v : ConfigValue)
      (absent : findKeyIdx info.ramBuffer key keyLen = none) :
      Sets cbor info key keyLen call
        ({ info with ramBuffer := info.ramBuffer.writeEntry info.ramBuffer.numKeys k v }, false)
  /-- The value did not fit into the slot of its key. -/
  | overrun (item : CborItem) (idx : Nat) (typed : call = .typed item)
      (keyLen_le : keyLen ≤ maxKeyLenBytes) (room : info.ramBuffer.numKeys < maxNumKv)
      (found : findKeyIdx info.ramBuffer key keyLen = some idx)
      (fails : (cbor.encode item (info.ramBuffer.values idx)).2 = false) :
      Sets cbor info key keyLen call
        ({ info with
            ramBuffer := (info.ramBuffer.writeKeyBuf idx key).writeValue idx
              (cbor.encode item (info.ramBuffer.values idx)).1 }, false)
  | replaced (idx : Nat) (k : ConfigKey) (v : ConfigValue) (keyLen_le : keyLen ≤ maxKeyLenBytes)
      (found : findKeyIdx info.ramBuffer key keyLen = some idx) (keyLen_eq : k.keyLen = keyLen)
      (keyBuf : k.keyBuf = snprintf (info.ramBuffer.keys idx).keyBuf key ∨
        k.keyBuf = (info.ramBuffer.keys idx).keyBuf)
      (stores : Stores cbor (info.ramBuffer.values idx) v call) :
      Sets cbor info key keyLen call (⟨info.ramBuffer.writeEntry idx k v, true⟩, true)
  | appended (k : ConfigKey) (v : ConfigValue) (keyLen_le : keyLen ≤ maxKeyLenBytes)
      (absent : findKeyIdx info.ramBuffer key keyLen = none)
      (valid : isKeyValid key keyLen = true) (room : info.ramBuffer.numKeys < maxNumKv)
      (keyLen_eq : k.keyLen = keyLen)
      (keyBuf : k.keyBuf = snprintf (info.ramBuffer.keys info.ramBuffer.numKeys).keyBuf key)
      (stores : Stores cbor (info.ramBuffer.values info.ramBuffer.numKeys) v call) :
      Sets cbor info key keyLen call
        (⟨{ info.ramBuffer.writeEntry info.ramBuffer.numKeys k v with
          numKeys := info.ramBuffer.numKeys + 1 }, true⟩, true)

section Setters
variable (cbor : TinyCbor) (info : ConfigInfo) (key : List UInt8) (keyLen : Nat)

theorem writeKeyBuf_eq (p : ConfigPartition) (idx : Nat) :
    p.writeKeyBuf idx key = p.writeEntry idx
      { p.keys idx with keyBuf := snprintf (p.keys idx).keyBuf key } (p.values idx) := by
  simp [ConfigPartition.writeKeyBuf, ConfigPartition.writeEntry]

theorem writeKey_writeEntry (p : ConfigPartition) (idx : Nat) (k : ConfigKey) (value : ConfigValue)
    (valueType : ConfigDataTypes) :
    (p.writeEntry idx k value).writeKey idx valueType keyLen =
      p.writeEntry idx { k with keyLen, valueType } value := by
  simp [ConfigPartition.writeKey, ConfigPartition.writeEntry]

theorem writeValue_writeEntry (p : ConfigPartition) (idx : Nat) (k : ConfigKey)
    (value value' : ConfigValue) :
    (p.writeEntry idx k value).writeValue idx value' = p.writeEntry idx k value' := by
  simp [ConfigPartition.writeValue, ConfigPartition.writeEntry]

@[simp] theorem writeEntry_numKeys (p : ConfigPartition) (idx : Nat) (k : ConfigKey)
    (value : ConfigValue) : (p.writeEntry idx k value).numKeys = p.numKeys := rfl

@[simp] theorem writeEntry_keys (p : ConfigPartition) (idx : Nat) (k : ConfigKey)
    (value : ConfigValue) :
    (p.writeEntry idx k value).keys = Function.update p.keys idx k := rfl

@[simp] theorem writeEntry_values (p : ConfigPartition) (idx : Nat) (k : ConfigKey)
    (value : ConfigValue) :
    (p.writeEntry idx k value).values = Function.update p.values idx value := rfl

theorem setConfig_sets (item : CborItem) (valueType : ConfigDataTypes) :
    Sets cbor info key keyLen (.typed item) (setConfig cbor info key keyLen item valueType) := by
  unfold setConfig prepareCborEncoder
  by_cases hlen : keyLen > maxKeyLenBytes
  · simp only [if_pos hlen]
    exact .refused
  by_cases hroom : info.ramBuffer.numKeys ≥ maxNumKv
  · simp only [if_neg hlen, if_pos hroom]
    exact .refused
  have hlen' : keyLen ≤ maxKeyLenBytes := Nat.le_of_not_lt hlen
  have hroom' : info.ramBuffer.numKeys < maxNumKv := Nat.lt_of_not_le hroom
  have hvalue : ∀ idx, (info.ramBuffer.writeKeyBuf idx key).values idx =
      info.ramBuffer.values idx :=
    fun _ => rfl
  simp only [if_neg hlen, if_neg hroom]
  cases hfind : findKeyIdx info.ramBuffer key keyLen with
  | some idx =>
    simp only [hvalue]
    cases hok : (cbor.encode item (info.ramBuffer.values idx)).2 with
    | false => exact .overrun item idx rfl hlen' hroom' hfind hok
    | true =>
      simp only [Bool.not_true, Bool.false_eq_true, if_false, if_true, writeKeyBuf_eq,
        writeValue_writeEntry, writeKey_writeEntry]
      exact .replaced idx _ _ hlen' hfind rfl (.inl rfl) (Prod.ext rfl hok)
  | none =>
    simp only
    by_cases hvalid : isKeyValid key keyLen = true
    · simp only [if_pos hvalid, hvalue]
      cases hok : (cbor.encode item (info.ramBuffer.values info.ramBuffer.numKeys)).2 with
      | false =>
        simp only [Bool.not_false, if_true, writeKeyBuf_eq, writeValue_writeEntry]
        exact .abandoned _ _ hfind
      | true =>
        simp only [Bool.not_true, Bool.false_eq_true, if_false, writeKeyBuf_eq,
          writeValue_writeEntry,
          writeKey_writeEntry]
        exact .appended _ _ hlen' hfind hvalid hroom' rfl rfl (Prod.ext rfl hok)
    · simp only [if_neg hvalid]
      exact .refused

theorem setConfigCbor_sets (value : List UInt8) :
    Sets cbor info key keyLen (.cbor value) (setConfigCbor cbor info key keyLen value) := by
  unfold setConfigCbor
  split
  · exact .refused
  rename_i hlen
  have hlen' : keyLen ≤ maxKeyLenBytes := Nat.le_of_not_lt hlen
  split
  · exact .refused
  rename_i hsize
  split
  · exact .refused
  rename_i hinit
  split
  · exact .refused
  have hstores : ∀ old valueType, cborTypeToConfig (cbor.type value) = some valueType →
      Stores cbor old (old.put value) (.cbor value) := by
    intro old valueType htype
    refine ⟨by omega, by simpa using hinit, ?_, rfl⟩
    rw [htype]
    rfl
  cases hfind : findKeyIdx info.ramBuffer key keyLen with
  | some idx =>
    dsimp only
    have hidx := (findKeyIdx_eq_some.mp hfind).1
    cases htype : cborTypeToConfig (cbor.type value) with
    | none => exact .refused
    | some valueType =>
      dsimp only
      rw [if_neg (by simp only [ConfigPartition.writeKey, ConfigPartition.writeValue]; omega)]
      exact .replaced idx { info.ramBuffer.keys idx with keyLen, valueType } _ hlen' hfind rfl
        (.inr rfl) (hstores _ _ htype)
  | none =>
    dsimp only
    by_cases hvalid : isKeyValid key keyLen = true
    · by_cases hroom : info.ramBuffer.numKeys ≥ maxNumKv
      · simp only [hvalid, hroom, Bool.not_true, Bool.false_eq_true, if_false, if_true]
        exact .refused
      simp only [hvalid, hroom, Bool.not_true, Bool.false_eq_true, if_false, writeKeyBuf_eq]
      cases htype : cborTypeToConfig (cbor.type value) with
      | none => exact .abandoned _ _ hfind
      | some valueType =>
        simp only [writeKey_writeEntry, writeValue_writeEntry, writeEntry_numKeys, if_true,
          writeEntry_values, Function.update_self]
        exact .appended _ _ hlen' hfind hvalid (Nat.lt_of_not_le hroom) rfl rfl
          (hstores _ _ htype)
    · simp only [hvalid, Bool.not_false, if_true]
      exact .refused

theorem setCall_sets (call : SetCall) :
    Sets cbor info key keyLen call (setCall cbor info key keyLen call) := by
  cases call with
  | typed item => cases item <;> exact setConfig_sets cbor info key keyLen _ _
  | cbor value => exact setConfigCbor_sets cbor info key keyLen value

end Setters

end BmCore.Configuration
