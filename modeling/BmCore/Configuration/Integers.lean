import BmCore.Configuration.Noninterference

/-!
# Integers

`set_config_cbor` stores an integer of any size. `get_config_uint` and `get_config_int` read 64 bits
of it and keep the low 32.
-/
namespace BmCore.Configuration
open Library Cbor

/-- `cbor_value_get_int64` reads an unsigned integer as well, without a check of its range. -/
def TinyCbor.ReadsSigned (cbor : TinyCbor) : Prop :=
  ∀ b, cbor.parserInit b = true → cbor.type b = .unsignedInteger →
    ∃ arg size, head? b = some ⟨0, some arg, size⟩ ∧ cbor.getInt64 b = some (.ofInt arg)

theorem tinyCbor_readsSigned : tinyCbor.ReadsSigned := by
  intro b hinit htype
  obtain ⟨arg, size, hhead, -⟩ := tinyCbor_readsHeads.unsigned b hinit htype
  exact ⟨arg, size, hhead, by simp [tinyCbor, hhead]⟩

/-- The getters return the number or nothing. -/
def ExactOrRefused (cbor : TinyCbor) (p : ConfigPartition) (key : List UInt8) (keyLen : Nat)
    (v : Int) : Prop :=
  (∀ value, getConfigUint cbor p key keyLen = some value → (value.toNat : Int) = v) ∧
  ∀ value, getConfigInt cbor p key keyLen = some value → value.toInt = v

/-! ## Numbers -/

theorem toInt_toInt32_eq_iff {v : Int} :
    (Int64.ofInt v).toInt32.toInt = v ↔ -2 ^ 31 ≤ v ∧ v < 2 ^ 31 := by
  rw [Int64.toInt32_ofInt, Int32.toInt_ofInt]
  have hsize : Int32.size = 2 ^ 32 := rfl
  rw [hsize]
  constructor
  · intro heq
    have hlow := Int.le_bmod (x := v) (m := 2 ^ 32) (by decide)
    have hhigh := Int.bmod_lt (x := v) (m := 2 ^ 32) (by decide)
    omega
  · rintro ⟨hlow, hhigh⟩
    exact Int.bmod_eq_of_le (by omega) (by omega)

theorem toNat_toUInt32_eq_iff {arg : Nat} (harg : arg < 2 ^ 64) :
    (UInt64.ofNat arg).toUInt32.toNat = arg ↔ arg < 2 ^ 32 := by
  rw [UInt64.toNat_toUInt32, UInt64.toNat_ofNat', Nat.mod_eq_of_lt harg]
  constructor
  · intro heq
    have hlt := Nat.mod_lt arg (show 0 < 2 ^ 32 by decide)
    omega
  · exact Nat.mod_eq_of_lt

/-- An argument has at most eight bytes. -/
theorem arg_lt {b : List UInt8} {m arg size : Nat} (h : head? b = some ⟨m, some arg, size⟩) :
    arg < 2 ^ 64 := by
  rcases head?_arg_lt h with ⟨-, hlt⟩ | ⟨hsize, hlt⟩
  · omega
  · have hle : 256 ^ (size - 1) ≤ 256 ^ 8 := Nat.pow_le_pow_right (by decide) (by omega)
    calc arg < 256 ^ (size - 1) := hlt
      _ ≤ 256 ^ 8 := hle
      _ = 2 ^ 64 := by norm_num

/-! ## What the getters read -/

section
variable {cbor : TinyCbor} {p : ConfigPartition} {info : ConfigInfo} {key value : List UInt8}
  {keyLen : Nat} {v : Int} {slot : ConfigValue}

/-- An integer that is accepted has one of the two types. -/
theorem type_of_integer (hheads : cbor.ReadsHeads) (hstrings : cbor.ReadsStrings)
    (hinit : cbor.parserInit value = true)
    (htype : (cborTypeToConfig (cbor.type value)).isSome = true)
    (hitem : value? value = some (.integer v)) :
    (cbor.type value = .unsignedInteger ∧ 0 ≤ v) ∨
      (cbor.type value = .negativeInteger ∧ v < 0) := by
  cases ht : cbor.type value with
  | unsignedInteger =>
    obtain ⟨arg, size, hhead, -⟩ := hheads.unsigned value hinit ht
    simp only [value?, hhead, Option.some.injEq, Value.integer.injEq] at hitem
    exact .inl ⟨rfl, by omega⟩
  | negativeInteger =>
    obtain ⟨arg, size, hhead, -⟩ := hheads.negative value hinit ht
    simp only [value?, hhead, Option.some.injEq, Value.integer.injEq] at hitem
    exact .inr ⟨rfl, by omega⟩
  | byteString =>
    obtain ⟨h, hhead, hmajor⟩ := (hstrings.bytes value hinit ht).1
    simp [value?_bytes hhead hmajor] at hitem
  | textString =>
    obtain ⟨h, hhead, hmajor⟩ := (hstrings.text value hinit ht).1
    simp [value?_text hhead hmajor] at hitem
  | array =>
    obtain ⟨h, hhead, hmajor⟩ := hheads.array value hinit ht
    simp [value?_array hhead hmajor] at hitem
  | float =>
    obtain ⟨bits, hhead, -⟩ := hheads.float value hinit ht
    simp [value?, hhead] at hitem
  | other => simp [ht, cborTypeToConfig] at htype
  | invalid => simp [ht, cborTypeToConfig] at htype

/-- The slot of the integer gives it back exactly if 31 bits and a sign are enough for it. -/
theorem exactOrRefused_slot_iff (hlocal : cbor.HeaderLocal) (hheads : cbor.ReadsHeads)
    (hstrings : cbor.ReadsStrings) (hsigned : cbor.ReadsSigned) {rest : List UInt8}
    (hlen : keyLen ≤ maxKeyLenBytes) (hslot : slotOf p key keyLen = some slot)
    (hbytes : slot.bytes = value ++ rest) (hinit : cbor.parserInit value = true)
    (htype : (cborTypeToConfig (cbor.type value)).isSome = true)
    (hitem : value? value = some (.integer v)) :
    ExactOrRefused cbor p key keyLen v ↔ -2 ^ 31 ≤ v ∧ v < 2 ^ 31 := by
  have hslotInit : cbor.parserInit slot.bytes = true := hbytes ▸ hlocal.init _ _ hinit
  have hit : prepareCborParser cbor p key keyLen = some slot :=
    (prepareCborParser_eq_some cbor).mpr ⟨hlen, hslot, hslotInit⟩
  have hslotType : cbor.type slot.bytes = cbor.type value := hbytes ▸ hlocal.type _ _ hinit
  rcases type_of_integer hheads hstrings hinit htype hitem with ⟨ht, hv⟩ | ⟨ht, hv⟩
  · obtain ⟨arg, size, hhead, huint⟩ := hheads.unsigned value hinit ht
    obtain ⟨arg', size', hhead', hint⟩ := hsigned value hinit ht
    obtain ⟨rfl, rfl⟩ : arg = arg' ∧ size = size' := by simpa [hhead] using hhead'
    obtain rfl : (arg : Int) = v := by simpa [value?, hhead] using hitem
    have hgetUint := hlocal.getUint64 value rest hinit ht
    have hgetInt := hlocal.getInt64 value rest hinit (by simp [TinyCbor.isInteger, ht])
    rw [← hbytes] at hgetUint hgetInt
    have hreadUint : getConfigUint cbor p key keyLen = some (UInt64.ofNat arg).toUInt32 := by
      simp [getConfigUint, hit, hslotType, ht, hgetUint, huint]
    have hreadInt : getConfigInt cbor p key keyLen = some (Int64.ofInt arg).toInt32 := by
      simp [getConfigInt, hit, TinyCbor.isInteger, hslotType, ht, hgetInt, hint]
    have hcast : (((UInt64.ofNat arg).toUInt32.toNat : Int) = arg) ↔ arg < 2 ^ 32 := by
      rw [Nat.cast_inj, toNat_toUInt32_eq_iff (arg_lt hhead)]
    simp only [ExactOrRefused, hreadUint, hreadInt, Option.some.injEq, forall_eq', hcast,
      toInt_toInt32_eq_iff]
    omega
  · obtain ⟨arg, size, hhead, hint⟩ := hheads.negative value hinit ht
    obtain rfl : (-1 - arg : Int) = v := by simpa [value?, hhead] using hitem
    have hgetInt := hlocal.getInt64 value rest hinit (by simp [TinyCbor.isInteger, ht])
    rw [← hbytes] at hgetInt
    have hreadUint : getConfigUint cbor p key keyLen = none := by
      simp [getConfigUint, hit, hslotType, ht]
    have hreadInt : getConfigInt cbor p key keyLen = some (Int64.ofInt (-1 - arg)).toInt32 := by
      simp [getConfigInt, hit, TinyCbor.isInteger, hslotType, ht, hgetInt, hint]
    simp only [ExactOrRefused, hreadUint, hreadInt, reduceCtorEq, Option.some.injEq, forall_eq',
      toInt_toInt32_eq_iff, false_imp_iff, forall_const, true_and]

theorem exactOrRefused_absent (h : slotOf p key keyLen = none) :
    ExactOrRefused cbor p key keyLen v := by
  have hit : prepareCborParser cbor p key keyLen = none := by
    rw [prepareCborParser_eq, h]
    split <;> rfl
  simp [ExactOrRefused, getConfigUint, getConfigInt, hit]

/-! ## What `set_config_cbor` accepts -/

theorem type_of_accepted (haccepted : (setConfigCbor cbor info key keyLen value).2 = true) :
    (cborTypeToConfig (cbor.type value)).isSome = true := by
  have hsets := setConfigCbor_sets cbor info key keyLen value
  generalize setConfigCbor cbor info key keyLen value = result at hsets haccepted
  cases hsets with
  | refused => simp at haccepted
  | abandoned => simp at haccepted
  | overrun => simp at haccepted
  | replaced idx k v hlen hfound hkeyLen hbuf hstores => exact hstores.2.2.1
  | appended k v hlen habsent hvalid hroom hkeyLen hbuf hstores => exact hstores.2.2.1

/-- After an integer has been accepted, as long as its slot stays, the getters of its key return it
or nothing exactly if it is in the range of an `int32_t`, or its key is not found again. -/
theorem no_silent_change_iff {s : System} (hreachable : Reachable cbor s)
    (hlocal : cbor.HeaderLocal) (hheads : cbor.ReadsHeads) (hstrings : cbor.ReadsStrings)
    (hsigned : cbor.ReadsSigned) (partition : BmConfigPartition)
    (haccepted : (setConfigCbor cbor (s.configs partition) key keyLen value).2 = true)
    (hitem : value? value = some (.integer v)) :
    (∀ p, slotOf p key keyLen =
        slotOf (setConfigCbor cbor (s.configs partition) key keyLen value).1.ramBuffer key keyLen →
      ExactOrRefused cbor p key keyLen v) ↔
    (-2 ^ 31 ≤ v ∧ v < 2 ^ 31) ∨ ¬ Found (s.configs partition).ramBuffer key keyLen := by
  obtain ⟨hlen, hinit, hsize, hfound, hcut⟩ :=
    slotOf_setConfigCbor (hreachable.sound.configs partition) haccepted
  have htype := type_of_accepted haccepted
  by_cases hkey : Found (s.configs partition).ramBuffer key keyLen
  · simp only [hkey, not_true_eq_false, or_false]
    have hslot := hfound hkey
    have hexact : ∀ p, slotOf p key keyLen = slotOf
        (setConfigCbor cbor (s.configs partition) key keyLen value).1.ramBuffer key keyLen →
        (ExactOrRefused cbor p key keyLen v ↔ -2 ^ 31 ≤ v ∧ v < 2 ^ 31) := fun p hp =>
      exactOrRefused_slot_iff hlocal hheads hstrings hsigned hlen (hp.trans hslot)
        (Buffer.put_bytes _ hsize) hinit htype hitem
    constructor
    · intro h
      exact (hexact _ rfl).mp (h _ rfl)
    · intro h p hp
      exact (hexact p hp).mpr h
  · simp only [hkey, not_false_eq_true, or_true, iff_true]
    intro p hp
    exact exactOrRefused_absent (hp.trans (hcut hkey))

end

/-- The number 23 under the key a. -/
theorem no_silent_change_23 :
    (∀ p, slotOf p [0x61] 1 = slotOf (setConfigCbor tinyCbor (freshSystem.configs .user) [0x61] 1
        [0x17]).1.ramBuffer [0x61] 1 → ExactOrRefused tinyCbor p [0x61] 1 23) ↔
    (-2 ^ 31 ≤ (23 : Int) ∧ (23 : Int) < 2 ^ 31) ∨
      ¬ Found (freshSystem.configs .user).ramBuffer [0x61] 1 :=
  no_silent_change_iff ⟨freshSystem, [], freshSystem_initial, rfl⟩ tinyCbor_headerLocal
    tinyCbor_readsHeads tinyCbor_readsStrings tinyCbor_readsSigned .user (by decide +kernel)
    (by decide)

/-- 2^32 + 5 is accepted and read as 5, and 2^32 - 1 is accepted and read as -1. -/
theorem integers_changed : Reachable tinyCbor freshSystem ∧
    value? [0x1B, 0, 0, 0, 1, 0, 0, 0, 5] = some (.integer (2 ^ 32 + 5)) ∧
    (setConfigCbor tinyCbor (freshSystem.configs .user) [0x61] 1
      [0x1B, 0, 0, 0, 1, 0, 0, 0, 5]).2 = true ∧
    ¬ ExactOrRefused tinyCbor (setConfigCbor tinyCbor (freshSystem.configs .user) [0x61] 1
      [0x1B, 0, 0, 0, 1, 0, 0, 0, 5]).1.ramBuffer [0x61] 1 (2 ^ 32 + 5) ∧
    value? [0x1A, 0xFF, 0xFF, 0xFF, 0xFF] = some (.integer (2 ^ 32 - 1)) ∧
    (setConfigCbor tinyCbor (freshSystem.configs .user) [0x61] 1
      [0x1A, 0xFF, 0xFF, 0xFF, 0xFF]).2 = true ∧
    ¬ ExactOrRefused tinyCbor (setConfigCbor tinyCbor (freshSystem.configs .user) [0x61] 1
      [0x1A, 0xFF, 0xFF, 0xFF, 0xFF]).1.ramBuffer [0x61] 1 (2 ^ 32 - 1) := by
  have huint : getConfigUint tinyCbor (setConfigCbor tinyCbor (freshSystem.configs .user) [0x61] 1
      [0x1B, 0, 0, 0, 1, 0, 0, 0, 5]).1.ramBuffer [0x61] 1 = some 5 := by decide +kernel
  have hint : getConfigInt tinyCbor (setConfigCbor tinyCbor (freshSystem.configs .user) [0x61] 1
      [0x1A, 0xFF, 0xFF, 0xFF, 0xFF]).1.ramBuffer [0x61] 1 = some (-1) := by decide +kernel
  refine ⟨⟨freshSystem, [], freshSystem_initial, rfl⟩, by decide, by decide +kernel, fun h => ?_,
    by decide, by decide +kernel, fun h => ?_⟩
  · exact absurd (h.1 5 huint) (by decide)
  · exact absurd (h.2 (-1) hint) (by decide)

end BmCore.Configuration
