import BmCore.Configuration.Runs
import Mathlib.Data.List.Nodup

/-!
# What was set is got back

`snprintf` stores 31 bytes of a key at most, while `strncmp` compares up to 32, and neither looks
behind a NUL. A key can be set and got back, as one key of its own, exactly if it has at most 31
bytes and no NUL before the last of them.
-/
namespace BmCore.Configuration
open Library

/-- The getter of the type that was set returns the value. `get_config_cbor` returns the whole slot,
with the value at its start. -/
def Returned (cbor : TinyCbor) (p : ConfigPartition) (key : List UInt8) (keyLen : Nat) :
    SetCall → Prop
  | .typed (.uint value) => getConfigUint cbor p key keyLen = some value
  | .typed (.int value) => getConfigInt cbor p key keyLen = some value
  | .typed (.float value) => getConfigFloat cbor p key keyLen = some value
  | .typed (.text value) => ∀ valueLen, value.length ≤ valueLen →
    getConfigString cbor p key keyLen valueLen = some value
  | .typed (.bytes value) => ∀ valueLen, value.length ≤ valueLen →
    getConfigBuffer cbor p key keyLen valueLen = some value
  | .cbor value => ∃ rest, ∀ valueLen, maxConfigBufferSizeBytes ≤ valueLen →
    getConfigCbor cbor p key keyLen valueLen = some (value ++ rest)

/-- A successful call sets the value of its key, which is then stored once, and of no other key. -/
def SetGet (cbor : TinyCbor) (info : ConfigInfo) (key : List UInt8) (keyLen : Nat)
    (call : SetCall) : Prop :=
  let result := setCall cbor info key keyLen call
  result.2 = true →
    Returned cbor result.1.ramBuffer key keyLen call ∧
    (getStoredKeys result.1.ramBuffer).count (chars keyLen key, keyLen) = 1 ∧
    ∀ key' keyLen', (chars keyLen' key', keyLen') ≠ (chars keyLen key, keyLen) →
      readings cbor result.1.ramBuffer key' keyLen' = readings cbor info.ramBuffer key' keyLen'

/-- Keys that are neither cut nor mistaken for others. -/
def Representable (key : List UInt8) (keyLen : Nat) : Prop :=
  keyLen < maxKeyLenBytes ∧ 0 ∉ (chars keyLen key).dropLast

/-! ## Representable keys -/

section Representable
variable {cbor : TinyCbor} {p : ConfigPartition} {key : List UInt8} {keyLen : Nat}

/-- What is read from the slot that a successful call leaves. -/
theorem returned_of_slot (hinverse : cbor.Inverse) (hlocal : cbor.HeaderLocal)
    {call : SetCall} {old value : ConfigValue} (hstores : Stores cbor old value call)
    (hlen : keyLen ≤ maxKeyLenBytes) (hslot : slotOf p key keyLen = some value) :
    Returned cbor p key keyLen call := by
  have hparser : cbor.parserInit value.bytes = true →
      prepareCborParser cbor p key keyLen = some value :=
    fun hinit => (prepareCborParser_eq_some cbor).mpr ⟨hlen, hslot, hinit⟩
  cases call with
  | cbor bytes =>
    obtain ⟨hsize, hinit, htype, rfl⟩ := hstores
    have hbytes := old.put_bytes hsize
    have hinit' : cbor.parserInit (old.put bytes).bytes = true := hbytes ▸ hlocal.init _ _ hinit
    have htype' : cbor.type (old.put bytes).bytes ≠ .invalid := by
      rw [hbytes, hlocal.type _ _ hinit]
      intro hinvalid
      rw [hinvalid] at htype
      simp [cborTypeToConfig] at htype
    refine ⟨old.bytes.drop bytes.length, fun valueLen hle => ?_⟩
    rw [getConfigCbor_eq, hparser hinit', ← hbytes]
    simp [htype', Nat.not_lt.mpr hle]
  | typed item =>
    have hok : (cbor.encode item old).2 = true := congrArg Prod.snd hstores
    obtain rfl : (cbor.encode item old).1 = value := congrArg Prod.fst hstores
    have hit := hparser (hinverse.init item old hok).1
    cases item with
    | uint value =>
      obtain ⟨htype, hget⟩ := hinverse.uint value old hok
      simp [Returned, getConfigUint, hit, htype, hget]
    | int value =>
      obtain ⟨htype, hget⟩ := hinverse.int value old hok
      simp [Returned, getConfigInt, hit, htype, hget]
    | float value =>
      obtain ⟨htype, hget⟩ := hinverse.float value old hok
      simp [Returned, getConfigFloat, hit, htype, hget]
    | text value =>
      obtain ⟨htype, hget⟩ := hinverse.text value old hok
      intro valueLen hle
      simp [getConfigString, hit, htype, hget valueLen hle]
    | bytes value =>
      obtain ⟨htype, hget⟩ := hinverse.bytes value old hok
      intro valueLen hle
      simp [getConfigBuffer, hit, htype, hget valueLen hle]

theorem chars_of_le {n : Nat} {s : List UInt8} (h : n ≤ s.length) : chars n s = s.take n :=
  List.take_append_of_le_length h

/-- A representable key is listed where its name is. -/
theorem listed_iff {k : ConfigKey} (h : Representable key keyLen) :
    (k.keyBuf.bytes.take k.keyLen, k.keyLen) = (chars keyLen key, keyLen) ↔
      k.name = nameOf key keyLen := by
  have hfits : keyLen ≤ k.keyBuf.bytes.length := by
    rw [k.keyBuf.length_eq]
    exact Nat.le_of_lt h.1
  constructor
  · rintro heq
    obtain ⟨hbytes, hlen⟩ := Prod.mk.inj heq
    rw [hlen, ← chars_of_le hfits] at hbytes
    rw [ConfigKey.name, hlen, nameOf, nameOf, ← cString_chars, ← cString_chars, hbytes]
  · intro hname
    obtain ⟨hlen, hchars⟩ := nameOf_inj h.2 hname
    rw [hlen] at hchars ⊢
    rw [← chars_of_le hfits, hchars]

theorem count_getStoredKeys (hsound : Sound p) (h : Representable key keyLen) {idx : Nat}
    (hidx : idx < p.numKeys) (hname : (p.keys idx).name = nameOf key keyLen) :
    (getStoredKeys p).count (chars keyLen key, keyLen) = 1 := by
  have hlen : (p.keys idx).keyLen = keyLen := congrArg Prod.fst hname
  have hunique : ∀ i < p.numKeys, ((p.keys i).keyBuf.bytes.take (p.keys i).keyLen,
      (p.keys i).keyLen) = (chars keyLen key, keyLen) ↔ i = idx := by
    intro i hi
    rw [listed_iff h]
    constructor
    · intro hi'
      exact (hsound.distinct idx hidx i hi (hlen ▸ h.1) (hname.trans hi'.symm)).symm
    · rintro rfl
      exact hname
  rw [getStoredKeys, List.count_eq_countP, List.countP_map]
  have hcount : (List.range p.numKeys).countP ((fun x => x == (chars keyLen key, keyLen)) ∘ fun i =>
      ((p.keys i).keyBuf.bytes.take (p.keys i).keyLen, (p.keys i).keyLen)) =
        (List.range p.numKeys).count idx := by
    rw [List.count_eq_countP]
    refine List.countP_congr fun i hi => ?_
    simp only [Function.comp_apply, beq_iff_eq]
    exact hunique i (List.mem_range.mp hi)
  rw [hcount, List.count_eq_one_of_mem List.nodup_range (List.mem_range.mpr hidx)]

/-- The first key of a name whose keys are distinct. -/
theorem findKeyIdx_of_name (hsound : Sound p) {idx : Nat} (hidx : idx < p.numKeys)
    (hname : (p.keys idx).name = nameOf key keyLen) (hlen : keyLen < maxKeyLenBytes) :
    findKeyIdx p key keyLen = some idx := by
  have hlen' : (p.keys idx).keyLen = keyLen := congrArg Prod.fst hname
  refine findKeyIdx_eq_some.mpr ⟨hidx, hname, fun i hi hi' => ?_⟩
  have heq := hsound.distinct idx hidx i (by omega) (hlen' ▸ hlen) (hname.trans hi'.symm)
  omega

/-- Another name is found where it was, with its value. -/
theorem slotOf_writeEntry {p' : ConfigPartition} {key' : List UInt8} {keyLen' idx : Nat}
    {k : ConfigKey} {v : ConfigValue} (hkeys : p'.keys = Function.update p.keys idx k)
    (hvalues : p'.values = Function.update p.values idx v)
    (hnum : p'.numKeys = p.numKeys ∧ (p.keys idx).name = k.name ∨
      p'.numKeys = p.numKeys + 1 ∧ idx = p.numKeys) (hother : k.name ≠ nameOf key' keyLen') :
    slotOf p' key' keyLen' = slotOf p key' keyLen' := by
  have hold : ∀ i, i ≠ idx → (p'.keys i).name = (p.keys i).name := by
    intro i hi
    rw [hkeys, Function.update_of_ne hi]
  have hnew : (p'.keys idx).name = k.name := by rw [hkeys, Function.update_self]
  unfold slotOf
  cases hfind : findKeyIdx p key' keyLen' with
  | none =>
    have hnone := findKeyIdx_eq_none.mp hfind
    have hnone' : findKeyIdx p' key' keyLen' = none := by
      refine findKeyIdx_eq_none.mpr fun i hi => ?_
      rcases eq_or_ne i idx with rfl | hne
      · rwa [hnew]
      · rw [hold i hne]
        exact hnone i (by omega)
    rw [hnone']
    rfl
  | some j =>
    obtain ⟨hj, hname, hbefore⟩ := findKeyIdx_eq_some.mp hfind
    have hne : j ≠ idx := by
      rintro rfl
      rcases hnum with ⟨-, heq⟩ | ⟨-, heq⟩
      · exact hother (heq ▸ hname)
      · omega
    have hsome : findKeyIdx p' key' keyLen' = some j := by
      refine findKeyIdx_eq_some.mpr ⟨by omega, by rw [hold j hne, hname], fun i hi => ?_⟩
      rcases eq_or_ne i idx with rfl | hne'
      · rwa [hnew]
      · rw [hold i hne']
        exact hbefore i hi
    rw [hsome, Option.map_some, Option.map_some, hvalues, Function.update_of_ne hne]

/-- A representable key is set and got back. -/
theorem setGet_of_representable (hinverse : cbor.Inverse) (hlocal : cbor.HeaderLocal)
    {info : ConfigInfo} (hsound : Sound info.ramBuffer) (h : Representable key keyLen)
    (call : SetCall) : SetGet cbor info key keyLen call := by
  have hset := setCall_sets cbor info key keyLen call
  unfold SetGet
  generalize setCall cbor info key keyLen call = result at hset
  have hsound' := hset.sound hsound
  intro result' htrue
  have hother : ∀ {k : ConfigKey}, k.name = nameOf key keyLen → ∀ key' keyLen',
      (chars keyLen' key', keyLen') ≠ (chars keyLen key, keyLen) →
        k.name ≠ nameOf key' keyLen' := by
    intro k hk key' keyLen' hne hname
    obtain ⟨hlen, hchars⟩ := nameOf_inj h.2 (hname.symm.trans hk)
    exact hne (Prod.ext hchars hlen)
  cases hset with
  | refused => simp [result'] at htrue
  | abandoned => simp [result'] at htrue
  | overrun => simp [result'] at htrue
  | replaced idx k v keyLen_le found keyLen_eq keyBuf stores =>
    obtain ⟨hidx, hname, -⟩ := findKeyIdx_eq_some.mp found
    have hk : k.name = nameOf key keyLen :=
      (name_rewritten hsound found keyLen_eq keyBuf).trans hname
    have hat : ((info.ramBuffer.writeEntry idx k v).keys idx).name = nameOf key keyLen := by
      rw [writeEntry_keys, Function.update_self, hk]
    refine ⟨returned_of_slot hinverse hlocal stores keyLen_le ?_,
      count_getStoredKeys hsound' h hidx hat, fun key' keyLen' hne => ?_⟩
    · rw [slotOf, findKeyIdx_of_name hsound' hidx hat h.1, Option.map_some, writeEntry_values,
        Function.update_self]
    · exact readings_congr cbor (slotOf_writeEntry rfl rfl (.inl ⟨rfl, hname.trans hk.symm⟩)
        (hother hk key' keyLen' hne))
  | appended k v keyLen_le absent valid room keyLen_eq keyBuf stores =>
    have hk : k.name = nameOf key keyLen := name_stored keyBuf keyLen_eq (.inl h.1)
    have hat : (Function.update info.ramBuffer.keys info.ramBuffer.numKeys k
        info.ramBuffer.numKeys).name = nameOf key keyLen := by
      rw [Function.update_self, hk]
    refine ⟨returned_of_slot hinverse hlocal stores keyLen_le ?_,
      count_getStoredKeys hsound' h (Nat.lt_succ_self _) hat, fun key' keyLen' hne => ?_⟩
    · rw [slotOf, findKeyIdx_of_name hsound' (Nat.lt_succ_self _) hat h.1, Option.map_some]
      exact congrArg some (Function.update_self ..)
    · exact readings_congr cbor (slotOf_writeEntry rfl rfl (.inr ⟨rfl, rfl⟩)
        (hother hk key' keyLen' hne))

end Representable

/-! ## Other keys -/

/-- A device with cleared RAM and no image. -/
def freshSystem : System := ⟨fun _ => ⟨zeroPartition, false⟩, fun _ => none⟩

theorem freshSystem_initial : Initial freshSystem :=
  ⟨fun _ => rfl, fun _ => rfl, fun _ _ h => by simp [freshSystem] at h⟩

section Unrepresentable
variable {cbor : TinyCbor} {info : ConfigInfo} {key : List UInt8} {keyLen : Nat}

/-- A setter leads from a reachable partition to a reachable one. -/
theorem reachable_set {s : System} (h : Reachable cbor s) (partition : BmConfigPartition)
    (key : List UInt8) (keyLen : Nat) (call : SetCall) : ∃ s', Reachable cbor s' ∧
      s'.configs partition = (setCall cbor (s.configs partition) key keyLen call).1 :=
  ⟨_, h.step (.store partition (.set key keyLen call)), Function.update_self ..⟩

/-- What `set_config_uint` stores under a new key. -/
def newKey (info : ConfigInfo) (key : List UInt8) (keyLen : Nat) : ConfigKey :=
  ⟨snprintf (info.ramBuffer.keys info.ramBuffer.numKeys).keyBuf key, keyLen, .uint32⟩

theorem setUint_new (hinverse : cbor.Inverse) (hlen : keyLen ≤ maxKeyLenBytes)
    (hroom : info.ramBuffer.numKeys < maxNumKv) (hvalid : isKeyValid key keyLen = true)
    (habsent : findKeyIdx info.ramBuffer key keyLen = none) (value : UInt32) :
    setCall cbor info key keyLen (.typed (.uint value)) =
      (⟨{ info.ramBuffer.writeEntry info.ramBuffer.numKeys (newKey info key keyLen)
        (cbor.encode (.uint value) (info.ramBuffer.values info.ramBuffer.numKeys)).1 with
          numKeys := info.ramBuffer.numKeys + 1 }, true⟩, true) := by
  have hok := hinverse.fits value (info.ramBuffer.values info.ramBuffer.numKeys)
  simp only [setCall, setConfigUint, setConfig, prepareCborEncoder, if_neg (Nat.not_lt.mpr hlen),
    if_neg (Nat.not_le.mpr hroom), habsent, hvalid, if_true, writeKeyBuf_eq, writeValue_writeEntry,
    writeKey_writeEntry, writeEntry_values, Function.update_self, hok, Bool.not_true,
    Bool.false_eq_true, if_false]
  rfl

/-- What it stores under an old one. -/
theorem setUint_old (hinverse : cbor.Inverse) (hlen : keyLen ≤ maxKeyLenBytes)
    (hroom : info.ramBuffer.numKeys < maxNumKv) {idx : Nat}
    (hfound : findKeyIdx info.ramBuffer key keyLen = some idx) (value : UInt32) :
    setCall cbor info key keyLen (.typed (.uint value)) =
      (⟨info.ramBuffer.writeEntry idx
        ⟨snprintf (info.ramBuffer.keys idx).keyBuf key, keyLen, .uint32⟩
        (cbor.encode (.uint value) (info.ramBuffer.values idx)).1, true⟩, true) := by
  have hok := hinverse.fits value (info.ramBuffer.values idx)
  simp only [setCall, setConfigUint, setConfig, prepareCborEncoder, if_neg (Nat.not_lt.mpr hlen),
    if_neg (Nat.not_le.mpr hroom), hfound, if_true, writeKeyBuf_eq, writeValue_writeEntry,
    writeKey_writeEntry, writeEntry_values, Function.update_self, hok, Bool.not_true,
    Bool.false_eq_true, if_false]

/-- Bytes behind a NUL make no difference, so that another key is set as well. -/
theorem not_setGet_of_nul (hinverse : cbor.Inverse) (hlocal : cbor.HeaderLocal)
    (hempty : info.ramBuffer.numKeys = 0) (hlen : keyLen ≤ maxKeyLenBytes)
    (hvalid : isKeyValid key keyLen = true) (hnul : 0 ∈ (chars keyLen key).dropLast) :
    ¬ SetGet cbor info key keyLen (.typed (.uint 0)) := by
  have hne : chars keyLen key ≠ [] := by
    intro hnil
    simp [hnil] at hnul
  obtain ⟨l, x, hsplit⟩ : ∃ l x, chars keyLen key = l ++ [x] :=
    ⟨_, _, (List.dropLast_append_getLast hne).symm⟩
  rw [hsplit, List.dropLast_concat] at hnul
  have hlength : (l ++ [x]).length = keyLen := by rw [← hsplit, length_chars]
  obtain ⟨y, hy⟩ : ∃ y : UInt8, y ≠ x := by
    by_cases hx : x = 0
    · exact ⟨1, by rw [hx]; decide⟩
    · exact ⟨0, Ne.symm hx⟩
  have hchars : chars keyLen (l ++ [y]) = l ++ [y] := by
    rw [chars_of_le (by simpa using hlength.ge)]
    exact List.take_of_length_le (by simpa using hlength.le)
  have hstring : (cString key).take keyLen = cString l := by
    rw [← cString_chars, hsplit, cString_append_of_mem hnul]
  have hname : nameOf (l ++ [y]) keyLen = nameOf key keyLen := by
    rw [nameOf, nameOf, hstring, ← cString_chars, hchars, cString_append_of_mem hnul]
  have hshort : (cString key).length < maxKeyLenBytes := by
    have htake := congrArg List.length hstring
    have hle : (cString l).length ≤ l.length := (List.takeWhile_prefix _).length_le
    rw [List.length_append, List.length_singleton] at hlength
    rw [List.length_take] at htake
    omega
  have habsent : findKeyIdx info.ramBuffer key keyLen = none := by
    refine findKeyIdx_eq_none.mpr fun i hi => ?_
    omega
  intro hset
  rw [SetGet, setUint_new hinverse hlen (by rw [hempty]; decide) hvalid habsent] at hset
  obtain ⟨-, -, hreadings⟩ := hset rfl
  have hsame := hreadings (l ++ [y]) keyLen (by
    intro heq
    have hbytes := (Prod.mk.inj heq).1
    rw [hchars, hsplit] at hbytes
    exact hy (by simpa using hbytes))
  -- the other key was absent before, and now it has the value
  have hbefore : getConfigUint cbor info.ramBuffer (l ++ [y]) keyLen = none := by
    have hnone : findKeyIdx info.ramBuffer (l ++ [y]) keyLen = none :=
      findKeyIdx_eq_none.mpr fun i hi => by omega
    simp [getConfigUint, prepareCborParser_eq, slotOf, hnone]
  have hafter := congrArg Readings.uint hsame
  simp only [readings, hbefore] at hafter
  have hstored : (newKey info key keyLen).name = nameOf key keyLen :=
    name_stored rfl rfl (.inr hshort)
  have hfound : findKeyIdx { info.ramBuffer.writeEntry info.ramBuffer.numKeys
      (newKey info key keyLen) (cbor.encode (.uint 0)
        (info.ramBuffer.values info.ramBuffer.numKeys)).1 with
          numKeys := info.ramBuffer.numKeys + 1 } (l ++ [y]) keyLen =
            some info.ramBuffer.numKeys := by
    refine findKeyIdx_eq_some.mpr ⟨Nat.lt_succ_self _, ?_, fun i hi => by omega⟩
    rw [writeEntry_keys, Function.update_self, hstored, hname]
  have hstores : Stores cbor (info.ramBuffer.values info.ramBuffer.numKeys) _ (.typed (.uint 0)) :=
    Prod.ext rfl (hinverse.fits 0 _)
  have hreturned := returned_of_slot hinverse hlocal hstores hlen
    (congrArg (Option.map _) hfound |>.trans (congrArg some (Function.update_self ..)))
  exact absurd (hafter.symm.trans hreturned) (by simp)

/-- A key of 32 bytes is stored without its last byte, and not found again. -/
theorem not_setGet_of_long (hinverse : cbor.Inverse) (hempty : info.ramBuffer.numKeys = 0)
    (hvalid : isKeyValid key maxKeyLenBytes = true) (hnul : 0 ∉ chars maxKeyLenBytes key) :
    ¬ SetGet cbor info key maxKeyLenBytes (.typed (.uint 0)) := by
  have hlength : ((cString key).take maxKeyLenBytes).length = maxKeyLenBytes := by
    rw [← cString_chars, cString_eq_self hnul, length_chars]
  have habsent : findKeyIdx info.ramBuffer key maxKeyLenBytes = none :=
    findKeyIdx_eq_none.mpr fun i hi => by omega
  intro hset
  rw [SetGet, setUint_new hinverse (le_refl _) (by rw [hempty]; decide) hvalid habsent] at hset
  obtain ⟨hreturned, -⟩ := hset rfl
  have hcut : (newKey info key maxKeyLenBytes).name ≠ nameOf key maxKeyLenBytes := by
    intro hname
    have hstring := congrArg List.length (Prod.mk.inj hname).2
    have hterm : (cString (newKey info key maxKeyLenBytes).keyBuf.bytes).length < maxKeyLenBytes :=
      terminated_stored rfl
    rw [hlength, List.length_take] at hstring
    omega
  have hnone : findKeyIdx { info.ramBuffer.writeEntry info.ramBuffer.numKeys
      (newKey info key maxKeyLenBytes) (cbor.encode (.uint 0)
        (info.ramBuffer.values info.ramBuffer.numKeys)).1 with
          numKeys := info.ramBuffer.numKeys + 1 } key maxKeyLenBytes = none := by
    refine findKeyIdx_eq_none.mpr fun i hi => ?_
    obtain rfl : i = info.ramBuffer.numKeys := by
      simp only at hi
      omega
    rwa [writeEntry_keys, Function.update_self]
  simp only [Returned, getConfigUint, prepareCborParser_eq, slotOf, hnone] at hreturned
  simp at hreturned

/-- A key of 31 bytes fills its buffer. -/
theorem bytes_snprintf {b : Buffer maxKeyLenBytes} {l : List UInt8} (hlength : l.length = 31)
    (hstring : (cString key).take 31 = l) : (snprintf b key).bytes = l ++ [0] := by
  have hfull : (l ++ [(0 : UInt8)]).length = maxKeyLenBytes := by
    rw [List.length_append, hlength]
    rfl
  have htake : (cString key).take (maxKeyLenBytes - 1) = l := hstring
  rw [snprintf, htake, Buffer.put_bytes _ hfull.le, hfull,
    List.drop_eq_nil_of_le b.length_eq.le, List.append_nil]

/-- Two keys of 32 bytes are stored as if they were this one. -/
theorem not_setGet_of_twice (hinverse : cbor.Inverse) {l : List UInt8} (hl : 0 ∉ l)
    (hsplit : chars maxKeyLenBytes key = l ++ [0]) {k₀ k₁ : ConfigKey}
    (hnum : info.ramBuffer.numKeys = 2) (hk₀ : info.ramBuffer.keys 0 = k₀)
    (hk₁ : info.ramBuffer.keys 1 = k₁) (hbuf₀ : k₀.keyBuf.bytes = l ++ [0])
    (hbuf₁ : k₁.keyBuf.bytes = l ++ [0]) (hlen₀ : k₀.keyLen = maxKeyLenBytes)
    (hlen₁ : k₁.keyLen = maxKeyLenBytes) :
    ¬ SetGet cbor info key maxKeyLenBytes (.typed (.uint 0)) := by
  have hlength : l.length = 31 := by
    have hsize := congrArg List.length hsplit
    rw [length_chars, List.length_append, List.length_singleton, maxKeyLenBytes] at hsize
    omega
  have hstring : (cString key).take maxKeyLenBytes = l := by
    rw [← cString_chars, hsplit]
    exact cString_append_zero hl []
  have hstring' : (cString key).take 31 = l := by
    have htake := congrArg (List.take 31) hstring
    rwa [List.take_take, List.take_of_length_le hlength.le] at htake
  have hname : (info.ramBuffer.keys 0).name = nameOf key maxKeyLenBytes := by
    rw [hk₀, ConfigKey.name, nameOf, nameOf, hbuf₀, hlen₀, hstring, cString_append_zero hl,
      List.take_of_length_le (by rw [hlength, maxKeyLenBytes]; omega)]
  have hfound : findKeyIdx info.ramBuffer key maxKeyLenBytes = some 0 :=
    findKeyIdx_eq_some.mpr ⟨by omega, hname, fun i hi => by omega⟩
  intro hset
  rw [SetGet, setUint_old hinverse (le_refl _) (by rw [hnum]; decide) hfound] at hset
  obtain ⟨-, hcount, -⟩ := hset rfl
  have hfull : (l ++ [(0 : UInt8)]).take maxKeyLenBytes = l ++ [0] :=
    List.take_of_length_le (by rw [List.length_append, hlength]; decide)
  have hrange : List.range 2 = [0, 1] := rfl
  simp only [getStoredKeys, writeEntry_numKeys, hnum, writeEntry_keys, hrange, List.map_cons,
    List.map_nil, Function.update_self, Function.update_of_ne (by decide : (1 : Nat) ≠ 0), hk₁,
    bytes_snprintf hlength hstring', hbuf₁, hlen₁, hfull, hsplit] at hcount
  simp at hcount

/-- A key of 31 bytes with its NUL is not told apart from keys of 32 bytes. -/
theorem exists_not_setGet_of_terminated (hinverse : cbor.Inverse)
    (hvalid : isKeyValid key maxKeyLenBytes = true) {l : List UInt8} (hl : 0 ∉ l)
    (hsplit : chars maxKeyLenBytes key = l ++ [0]) :
    ∃ s, Reachable cbor s ∧
      ¬ SetGet cbor (s.configs .user) key maxKeyLenBytes (.typed (.uint 0)) := by
  have hlength : l.length = 31 := by
    have hsize := congrArg List.length hsplit
    rw [length_chars, List.length_append, List.length_singleton, maxKeyLenBytes] at hsize
    omega
  -- the letter a in the place of the NUL
  have hchars : chars maxKeyLenBytes (l ++ [0x61]) = l ++ [0x61] := by
    rw [chars_of_le (by rw [List.length_append, hlength]; decide)]
    exact List.take_of_length_le (by rw [List.length_append, hlength]; decide)
  have hstring : cString (l ++ [0x61]) = l ++ [0x61] := cString_eq_self (by simp [hl])
  have hvalid' : isKeyValid (l ++ [0x61]) maxKeyLenBytes = true := by
    rw [isKeyValid, hsplit, List.all_append, Bool.and_eq_true] at hvalid
    rw [isKeyValid, hchars, List.all_append, Bool.and_eq_true]
    exact ⟨hvalid.1, by decide⟩
  have hcut : (cString (l ++ [0x61])).take 31 = l := by
    rw [hstring, List.take_left' hlength]
  have hother : ∀ k : ConfigKey, k.keyBuf.bytes = l ++ [0] → k.name ≠
      nameOf (l ++ [0x61]) maxKeyLenBytes := by
    intro k hbuf hname
    have hsize := congrArg List.length (Prod.mk.inj hname).2
    rw [hbuf, hstring, cString_append_zero hl, List.length_take, List.length_take,
      List.length_append, hlength, List.length_singleton] at hsize
    simp only [maxKeyLenBytes] at hsize
    omega
  have hfresh : Reachable cbor freshSystem := ⟨freshSystem, [], freshSystem_initial, rfl⟩
  obtain ⟨s₁, h₁, hinfo₁⟩ := reachable_set hfresh .user (l ++ [0x61]) maxKeyLenBytes
    (.typed (.uint 0))
  rw [setUint_new hinverse (le_refl _) (by decide) hvalid'
    (findKeyIdx_eq_none.mpr fun i hi => absurd hi (Nat.not_lt_zero i))] at hinfo₁
  obtain ⟨s₂, h₂, hinfo₂⟩ := reachable_set h₁ .user (l ++ [0x61]) maxKeyLenBytes
    (.typed (.uint 0))
  have hbuf₁ : ((s₁.configs .user).ramBuffer.keys 0).keyBuf.bytes = l ++ [0] := by
    rw [hinfo₁]
    exact bytes_snprintf hlength hcut
  have hnum₁ : (s₁.configs .user).ramBuffer.numKeys = 1 := by
    rw [hinfo₁]
    rfl
  rw [setUint_new hinverse (le_refl _) (by rw [hnum₁]; decide) hvalid'
    (findKeyIdx_eq_none.mpr fun i hi => by
      obtain rfl : i = 0 := by omega
      exact hother _ hbuf₁)] at hinfo₂
  refine ⟨s₂, h₂, not_setGet_of_twice hinverse hl hsplit ?_ rfl rfl ?_ ?_ ?_ ?_⟩
  · rw [hinfo₂, hnum₁]
  · rw [hinfo₂, hnum₁, writeEntry_keys, Function.update_of_ne (by decide), hbuf₁]
  · rw [hinfo₂, hnum₁, writeEntry_keys, Function.update_self]
    exact bytes_snprintf hlength hcut
  · rw [hinfo₂, hnum₁, writeEntry_keys, Function.update_of_ne (by decide), hinfo₁]
    rfl
  · rw [hinfo₂, hnum₁, writeEntry_keys, Function.update_self]
    rfl

end Unrepresentable

/-- A valid key can be set to any value and got back, in every reachable store and without any other
key being affected, exactly if it has less than 32 bytes and no NUL before the last of them. -/
theorem set_get_iff_representable (cbor : TinyCbor) (hinverse : cbor.Inverse)
    (hlocal : cbor.HeaderLocal) (key : List UInt8) (keyLen : Nat) (hlen : keyLen ≤ maxKeyLenBytes)
    (hvalid : isKeyValid key keyLen = true) :
    (∀ s, Reachable cbor s → ∀ partition call, SetGet cbor (s.configs partition) key keyLen call) ↔
      Representable key keyLen := by
  have hfresh : Reachable cbor freshSystem := ⟨freshSystem, [], freshSystem_initial, rfl⟩
  constructor
  · intro hall
    by_contra hnot
    by_cases hnul : 0 ∈ (chars keyLen key).dropLast
    · exact not_setGet_of_nul hinverse hlocal rfl hlen hvalid hnul
        (hall freshSystem hfresh .user (.typed (.uint 0)))
    have hfull : keyLen = maxKeyLenBytes := by
      by_contra hne
      exact hnot ⟨by omega, hnul⟩
    subst hfull
    have hne : chars maxKeyLenBytes key ≠ [] := by
      intro hnil
      have hsize := length_chars maxKeyLenBytes key
      rw [hnil] at hsize
      exact absurd hsize (by decide)
    have hsplit := (List.dropLast_append_getLast hne).symm
    by_cases hlast : (chars maxKeyLenBytes key).getLast hne = 0
    · rw [hlast] at hsplit
      obtain ⟨s, hs, hbad⟩ := exists_not_setGet_of_terminated hinverse hvalid hnul hsplit
      exact hbad (hall s hs .user _)
    · refine not_setGet_of_long hinverse rfl hvalid (fun hmem => ?_)
        (hall freshSystem hfresh .user (.typed (.uint 0)))
      rw [hsplit, List.mem_append, List.mem_singleton] at hmem
      exact hmem.elim hnul fun h => hlast h.symm
  · intro h s hs partition call
    exact setGet_of_representable hinverse hlocal (hs.sound.configs partition) h call

/-- The key foo in an empty partition. -/
theorem set_get_foo :
    SetGet tinyCbor (freshSystem.configs .user) [0x66, 0x6F, 0x6F] 3 (.typed (.uint 7)) :=
  (set_get_iff_representable tinyCbor tinyCbor_inverse tinyCbor_headerLocal [0x66, 0x6F, 0x6F] 3
    (by decide) (by decide)).mpr ⟨by decide, by decide⟩ freshSystem
      ⟨freshSystem, [], freshSystem_initial, rfl⟩ .user (.typed (.uint 7))

/-- A key of 32 letters. -/
def longKey : List UInt8 := List.replicate 32 0x61

theorem longKey_lost : Reachable tinyCbor freshSystem ∧ isKeyValid longKey 32 = true ∧
    (setConfigUint tinyCbor (freshSystem.configs .user) longKey 32 7).2 = true ∧
    getConfigUint tinyCbor
      (setConfigUint tinyCbor (freshSystem.configs .user) longKey 32 7).1.ramBuffer longKey 32 =
        none ∧
    ¬ SetGet tinyCbor (freshSystem.configs .user) longKey 32 (.typed (.uint 7)) := by
  have hset : (setConfigUint tinyCbor (freshSystem.configs .user) longKey 32 7).2 = true := by
    decide +kernel
  have hget : getConfigUint tinyCbor
      (setConfigUint tinyCbor (freshSystem.configs .user) longKey 32 7).1.ramBuffer longKey 32 =
        none := by decide +kernel
  refine ⟨⟨freshSystem, [], freshSystem_initial, rfl⟩, by decide, hset, hget, fun h => ?_⟩
  obtain ⟨hreturned, -⟩ := h hset
  exact absurd (hget.symm.trans hreturned) (by decide)

end BmCore.Configuration
