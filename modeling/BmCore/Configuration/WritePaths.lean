import BmCore.Configuration.Atomicity
import BmCore.Configuration.Persistence

/-!
# The two ways to write a value

A setter for one type, and `set_config_cbor` with the encoding of the same value. The setter refuses
every call on a full partition, also for a key that is stored, and it may leave a header behind when
a string does not fit. The two ways agree in all other cases.
-/
namespace BmCore.Configuration
open Library

/-- The bytes of an item. -/
def CborItem.encoded (item : CborItem) : List UInt8 := item.encoding.1 ++ item.encoding.2

/-- Both calls are accepted or refused, and all keys read the same afterwards. -/
def PathsAgree (cbor : TinyCbor) (info : ConfigInfo) (key : List UInt8) (keyLen : Nat)
    (item : CborItem) : Prop :=
  let typed := setCall cbor info key keyLen (.typed item)
  let encoded := setCall cbor info key keyLen (.cbor item.encoded)
  typed.2 = encoded.2 ∧ ∀ key' keyLen',
    readings cbor typed.1.ramBuffer key' keyLen' = readings cbor encoded.1.ramBuffer key' keyLen'

/-- A stored key is set to a value that fits, in a full partition. -/
def FullUpdate (info : ConfigInfo) (key : List UInt8) (keyLen : Nat) (item : CborItem) : Prop :=
  maxNumKv ≤ info.ramBuffer.numKeys ∧ keyLen ≤ maxKeyLenBytes ∧
    (findKeyIdx info.ramBuffer key keyLen).isSome = true ∧
    item.encoded.length ≤ maxConfigBufferSizeBytes

section Paths
variable {cbor : TinyCbor} {info : ConfigInfo} {key : List UInt8} {keyLen : Nat} {item : CborItem}

/-- Encodings are accepted by `set_config_cbor` if they fit. -/
theorem fits_encoded (hinverse : cbor.Inverse) (hlocal : cbor.HeaderLocal)
    (hfirst : cbor.HeaderFirst) (hle : item.encoded.length ≤ maxConfigBufferSizeBytes) :
    Fits cbor (.cbor item.encoded) := by
  have hinit : cbor.parserInit item.encoded = true := hfirst.init item _
  let buf : ConfigValue := ⟨List.replicate maxConfigBufferSizeBytes 0, by simp⟩
  have hencode : cbor.encode item buf = (buf.put item.encoded, true) := by
    rw [hfirst.encode, writeItem, if_pos (by rwa [CborItem.encoded, List.length_append] at hle)]
    rfl
  have hok : (cbor.encode item buf).2 = true := by rw [hencode]
  have htype : cbor.type (cbor.encode item buf).1.bytes = cbor.type item.encoded := by
    rw [hencode, buf.put_bytes hle]
    exact hlocal.type _ _ hinit
  refine ⟨?_, hle, hinit, ?_⟩
  · have hpos : item.encoding.1 ≠ [] := by
      intro hnil
      have hhead := head?_encoding item []
      rw [hnil] at hhead
      simp [Cbor.head?] at hhead
    rw [CborItem.encoded, List.length_append]
    have := List.length_pos_iff.mpr hpos
    omega
  · cases item with
    | uint value => rw [← htype, (hinverse.uint value buf hok).1]; rfl
    | int value =>
      have hinteger := (hinverse.int value buf hok).1
      rw [TinyCbor.isInteger, Bool.or_eq_true, beq_iff_eq, beq_iff_eq, htype] at hinteger
      rcases hinteger with h | h <;> rw [h] <;> rfl
    | float value => rw [← htype, (hinverse.float value buf hok).1]; rfl
    | text value => rw [← htype, (hinverse.text value buf hok).1]; rfl
    | bytes value => rw [← htype, (hinverse.bytes value buf hok).1]; rfl

/-- When a setter for one type is successful. -/
theorem setCall_typed_iff (hfirst : cbor.HeaderFirst) :
    (setCall cbor info key keyLen (.typed item)).2 = true ↔ keyLen ≤ maxKeyLenBytes ∧
      info.ramBuffer.numKeys < maxNumKv ∧
      ((findKeyIdx info.ramBuffer key keyLen).isSome = true ∨ isKeyValid key keyLen = true) ∧
      item.encoded.length ≤ maxConfigBufferSizeBytes := by
  have hlength : item.encoded.length = item.encoding.1.length + item.encoding.2.length :=
    List.length_append
  have hok : ∀ buf : ConfigValue, (cbor.encode item buf).2 = true ↔
      item.encoded.length ≤ maxConfigBufferSizeBytes := by
    intro buf
    have hover := (hfirst.overrun item buf).1
    rw [hlength]
    cases hencode : (cbor.encode item buf).2 with
    | false =>
      have := hover.mp hencode
      simp only [Bool.false_eq_true, false_iff]
      omega
    | true =>
      simp only [true_iff]
      by_contra hlong
      have := hover.mpr (Nat.lt_of_not_le hlong)
      simp [hencode] at this
  have hset : ∀ valueType, (setConfig cbor info key keyLen item valueType).2 = true ↔
      keyLen ≤ maxKeyLenBytes ∧ info.ramBuffer.numKeys < maxNumKv ∧
      ((findKeyIdx info.ramBuffer key keyLen).isSome = true ∨ isKeyValid key keyLen = true) ∧
      item.encoded.length ≤ maxConfigBufferSizeBytes := by
    intro valueType
    unfold setConfig prepareCborEncoder
    by_cases hlen : keyLen > maxKeyLenBytes
    · simp [hlen, Nat.not_le.mpr hlen]
    by_cases hroom : info.ramBuffer.numKeys ≥ maxNumKv
    · simp [hlen, hroom, Nat.not_lt.mpr hroom]
    simp only [if_neg hlen, if_neg hroom, Nat.le_of_not_lt hlen, Nat.lt_of_not_le hroom, true_and]
    cases hfind : findKeyIdx info.ramBuffer key keyLen with
    | some idx =>
      simp only [← hok ((info.ramBuffer.writeKeyBuf idx key).values idx)]
      cases hencode : (cbor.encode item ((info.ramBuffer.writeKeyBuf idx key).values idx)).2
        <;> simp
    | none =>
      cases hvalid : isKeyValid key keyLen with
      | false => simp
      | true =>
        simp only [if_true, ← hok ((info.ramBuffer.writeKeyBuf info.ramBuffer.numKeys key).values
          info.ramBuffer.numKeys)]
        cases hencode : (cbor.encode item
          ((info.ramBuffer.writeKeyBuf info.ramBuffer.numKeys key).values
            info.ramBuffer.numKeys)).2 <;> simp
  cases item <;> exact hset _

/-- When `set_config_cbor` is successful on an encoding. -/
theorem setCall_encoded_iff (hinverse : cbor.Inverse) (hlocal : cbor.HeaderLocal)
    (hfirst : cbor.HeaderFirst) :
    (setCall cbor info key keyLen (.cbor item.encoded)).2 = true ↔ keyLen ≤ maxKeyLenBytes ∧
      item.encoded.length ≤ maxConfigBufferSizeBytes ∧
      ((findKeyIdx info.ramBuffer key keyLen).isSome = true ∨
        isKeyValid key keyLen = true ∧ info.ramBuffer.numKeys < maxNumKv) := by
  simp only [setCall, setConfigCbor]
  by_cases hlen : keyLen > maxKeyLenBytes
  · simp [hlen, Nat.not_le.mpr hlen]
  by_cases hsize : item.encoded.length ≤ maxConfigBufferSizeBytes
  · obtain ⟨hpos, -, hinit, htype⟩ := fits_encoded hinverse hlocal hfirst hsize
    obtain ⟨valueType, htype'⟩ := Option.isSome_iff_exists.mp htype
    have hne : cbor.type item.encoded ≠ .invalid := hfirst.type item _
    have hsize' : ¬ (item.encoded.length > maxConfigBufferSizeBytes ∨ item.encoded.length = 0) := by
      omega
    simp only [if_neg hlen, if_neg hsize', hinit, Bool.not_true, Bool.false_eq_true, if_false,
      if_neg hne, htype', Nat.le_of_not_lt hlen, hsize, true_and]
    cases hfind : findKeyIdx info.ramBuffer key keyLen with
    | some idx => simp
    | none =>
      by_cases hvalid : isKeyValid key keyLen = true
      · by_cases hroom : info.ramBuffer.numKeys ≥ maxNumKv
        · simp [hvalid, hroom]
        · simp [hvalid, hroom, Nat.lt_of_not_le hroom]
      · simp [hvalid]
  · have hsize' : item.encoded.length > maxConfigBufferSizeBytes ∨ item.encoded.length = 0 :=
      .inl (Nat.lt_of_not_le hsize)
    rw [if_neg hlen, if_pos hsize']
    simp [hsize]

/-- A setter that is successful puts the encoding of the value into the slot. -/
theorem Stores.encoded (hfirst : cbor.HeaderFirst) {old new : ConfigValue}
    (h : Stores cbor old new (.typed item) ∨ Stores cbor old new (.cbor item.encoded)) :
    new = old.put item.encoded := by
  rcases h with h | h
  · rw [Stores, hfirst.encode, writeItem] at h
    split_ifs at h
    all_goals simp only [Prod.mk.injEq, Bool.false_eq_true, and_false, and_true] at h
    exact h.symm
  · exact h.2.2.2

/-- What a successful call leaves: the names and the slots of the partition. -/
structure Written (p p' : ConfigPartition) (key : List UInt8) (keyLen : Nat)
    (value : List UInt8) : Prop where
  found : ∀ idx, findKeyIdx p key keyLen = some idx → p'.numKeys = p.numKeys ∧
    (∀ i < p.numKeys, (p'.keys i).name = (p.keys i).name) ∧
    p'.values = Function.update p.values idx ((p.values idx).put value)
  absent : findKeyIdx p key keyLen = none → p'.numKeys = p.numKeys + 1 ∧
    (∀ i < p.numKeys, (p'.keys i).name = (p.keys i).name) ∧
    (p'.keys p.numKeys).name = (keyLen, ((cString key).take (maxKeyLenBytes - 1)).take keyLen) ∧
    p'.values = Function.update p.values p.numKeys ((p.values p.numKeys).put value)

theorem Sets.written (hfirst : cbor.HeaderFirst) (h : Sound info.ramBuffer) {call : SetCall}
    (hcall : call = .typed item ∨ call = .cbor item.encoded) {result : ConfigInfo × Bool}
    (hset : Sets cbor info key keyLen call result) (hok : result.2 = true) :
    Written info.ramBuffer result.1.ramBuffer key keyLen item.encoded := by
  have hstores : ∀ {old new}, Stores cbor old new call → new = old.put item.encoded := by
    intro old new hnew
    refine Stores.encoded hfirst ?_
    rcases hcall with rfl | rfl
    · exact .inl hnew
    · exact .inr hnew
  cases hset with
  | refused => simp at hok
  | abandoned => simp at hok
  | overrun => simp at hok
  | replaced idx k v keyLen_le found keyLen_eq keyBuf stores =>
    refine ⟨fun idx' hidx' => ?_, fun habsent => ?_⟩
    · obtain rfl := Option.some.inj (found.symm.trans hidx')
      refine ⟨rfl, fun i hi => ?_, by rw [hstores stores]; rfl⟩
      rw [writeEntry_keys]
      rcases eq_or_ne i idx with rfl | hne
      · rw [Function.update_self]
        exact name_rewritten h found keyLen_eq keyBuf
      · rw [Function.update_of_ne hne]
    · rw [found] at habsent
      simp at habsent
  | appended k v keyLen_le absent valid room keyLen_eq keyBuf stores =>
    refine ⟨fun idx hidx => ?_, fun _ => ⟨rfl, fun i hi => ?_, ?_, by rw [hstores stores]; rfl⟩⟩
    · rw [absent] at hidx
      simp at hidx
    · rw [writeEntry_keys, Function.update_of_ne (Nat.ne_of_lt hi)]
    · rw [writeEntry_keys, Function.update_self, ConfigKey.name, nameOf, cString_stored keyBuf,
        keyLen_eq]

/-- Partitions in which the same was written read the same. -/
theorem Written.readings {p p₁ p₂ : ConfigPartition} {value : List UInt8}
    (h₁ : Written p p₁ key keyLen value) (h₂ : Written p p₂ key keyLen value) (key' : List UInt8)
    (keyLen' : Nat) : readings cbor p₁ key' keyLen' = readings cbor p₂ key' keyLen' := by
  refine readings_congr cbor ?_
  cases hfind : findKeyIdx p key keyLen with
  | some idx =>
    obtain ⟨hnum₁, hnames₁, hvalues₁⟩ := h₁.found idx hfind
    obtain ⟨hnum₂, hnames₂, hvalues₂⟩ := h₂.found idx hfind
    rw [slotOf, slotOf, findKeyIdx_congr hnum₁ hnames₁, findKeyIdx_congr hnum₂ hnames₂, hvalues₁,
      hvalues₂]
  | none =>
    obtain ⟨hnum₁, hnames₁, hnew₁, hvalues₁⟩ := h₁.absent hfind
    obtain ⟨hnum₂, hnames₂, hnew₂, hvalues₂⟩ := h₂.absent hfind
    have hnames : ∀ i < p₂.numKeys, (p₁.keys i).name = (p₂.keys i).name := by
      intro i hi
      rcases Nat.lt_succ_iff_lt_or_eq.mp (hnum₂ ▸ hi) with hi | rfl
      · rw [hnames₁ i hi, hnames₂ i hi]
      · rw [hnew₁, hnew₂]
    rw [slotOf, slotOf, findKeyIdx_congr (hnum₁.trans hnum₂.symm) hnames, hvalues₁, hvalues₂]

theorem not_overruns_cbor (value : List UInt8) : ¬ Overruns info key keyLen (.cbor value) := by
  rintro ⟨item, idx, hcall, -⟩
  simp at hcall

/-- Only in a full partition is one of the calls refused and the other one accepted. -/
theorem accepted_ne_iff (hinverse : cbor.Inverse) (hlocal : cbor.HeaderLocal)
    (hfirst : cbor.HeaderFirst) :
    (setCall cbor info key keyLen (.typed item)).2 ≠
      (setCall cbor info key keyLen (.cbor item.encoded)).2 ↔ FullUpdate info key keyLen item := by
  have htyped : (setCall cbor info key keyLen (.typed item)).2 = true ↔ _ :=
    setCall_typed_iff hfirst
  have hencoded : (setCall cbor info key keyLen (.cbor item.encoded)).2 = true ↔ _ :=
    setCall_encoded_iff hinverse hlocal hfirst
  rw [ne_eq, Bool.eq_iff_iff, htyped, hencoded, FullUpdate]
  by_cases hroom : info.ramBuffer.numKeys < maxNumKv
  · simp only [hroom, Nat.not_le.mpr hroom, true_and, and_true, false_and, iff_false, not_not]
    rw [and_comm (b := _ ≤ maxConfigBufferSizeBytes)]
  · simp only [hroom, Nat.le_of_not_lt hroom, false_and, and_false, or_false, true_and, false_iff,
      not_not]
    rw [and_comm (b := _ = true)]

/-- A value that does not fit is refused by both calls, and `set_config_cbor` changes nothing. -/
theorem not_pathsAgree_of_overruns (hfirst : cbor.HeaderFirst) (h : Sound info.ramBuffer)
    (hover : Overruns info key keyLen (.typed item)) : ¬ PathsAgree cbor info key keyLen item := by
  rintro ⟨haccepted, hread⟩
  refine not_atomic_of_overruns hfirst h hover fun hfalse => ?_
  obtain ⟨-, hreadings⟩ := atomic_of_not_overruns hfirst h (not_overruns_cbor item.encoded)
    (haccepted.symm.trans hfalse)
  obtain ⟨item', idx, hitem, hlong, hlen, hroom, hfound, -⟩ := hover
  obtain rfl := SetCall.typed.inj hitem
  refine ⟨?_, fun key' keyLen' => (hread key' keyLen').trans (hreadings key' keyLen')⟩
  rw [setCall_overrun hlen hroom hfound ((hfirst.overrun _ _).1.mpr hlong)]

theorem pathsAgree_of_accepted_eq (hfirst : cbor.HeaderFirst) (h : Sound info.ramBuffer)
    (hnot : ¬ Overruns info key keyLen (.typed item))
    (haccepted : (setCall cbor info key keyLen (.typed item)).2 =
      (setCall cbor info key keyLen (.cbor item.encoded)).2) :
    PathsAgree cbor info key keyLen item := by
  refine ⟨haccepted, fun key' keyLen' => ?_⟩
  cases hok : (setCall cbor info key keyLen (.typed item)).2 with
  | true =>
    have hwritten := (setCall_sets cbor info key keyLen _).written hfirst h (.inl rfl) hok
    have hwritten' := (setCall_sets cbor info key keyLen _).written hfirst h (.inr rfl)
      (haccepted.symm.trans hok)
    exact hwritten.readings hwritten' key' keyLen'
  | false =>
    have hread := (atomic_of_not_overruns hfirst h hnot hok).2 key' keyLen'
    have hread' := (atomic_of_not_overruns hfirst h (not_overruns_cbor item.encoded)
      (haccepted.symm.trans hok)).2 key' keyLen'
    exact hread.trans hread'.symm

end Paths

/-- In every reachable store the setter for a type and `set_config_cbor` agree on a value exactly if
the partition is not full with the key in it, and the setter leaves no header behind. -/
theorem paths_agree_iff (cbor : TinyCbor) (hinverse : cbor.Inverse) (hlocal : cbor.HeaderLocal)
    (hfirst : cbor.HeaderFirst) (s : System) (hs : Reachable cbor s)
    (partition : BmConfigPartition) (key : List UInt8) (keyLen : Nat) (item : CborItem) :
    PathsAgree cbor (s.configs partition) key keyLen item ↔
      ¬ FullUpdate (s.configs partition) key keyLen item ∧
      ¬ Overruns (s.configs partition) key keyLen (.typed item) := by
  have hsound := hs.sound.configs partition
  constructor
  · intro hagree
    refine ⟨fun hfull => ?_, fun hover => ?_⟩
    · exact (accepted_ne_iff hinverse hlocal hfirst).mpr hfull hagree.1
    · exact not_pathsAgree_of_overruns hfirst hsound hover hagree
  · rintro ⟨hfull, hover⟩
    refine pathsAgree_of_accepted_eq hfirst hsound hover (not_not.mp fun hne => hfull ?_)
    exact (accepted_ne_iff hinverse hlocal hfirst).mp hne

/-- Keys of two letters are set to 1 until the partition is full. -/
def fullSystem : System :=
  ((List.range maxNumKv).map fun i => Op.store .user
    (.set [0x61 + UInt8.ofNat (i / 10), 0x61 + UInt8.ofNat (i % 10)] 2 (.typed (.uint 1)))).foldl
      (step tinyCbor) freshSystem

theorem fullSystem_reachable : Reachable tinyCbor fullSystem := ⟨_, _, freshSystem_initial, rfl⟩

/-- A new value by both ways. -/
theorem pathsAgree_savedFive : PathsAgree tinyCbor (savedFive.configs .user) [0x61] 1
    (.uint 6) := by
  refine (paths_agree_iff tinyCbor tinyCbor_inverse tinyCbor_headerLocal tinyCbor_headerFirst
    savedFive savedFive_reachable .user [0x61] 1 (.uint 6)).mpr ⟨?_, ?_⟩
  · rintro ⟨hfull, -⟩
    exact absurd hfull (by decide +kernel)
  · rintro ⟨item, idx, hitem, hlong, -⟩
    obtain rfl := SetCall.typed.inj hitem
    exact absurd hlong (by decide)

/-- In the full partition a stored key is updated in one of the two ways only. -/
theorem fullSystem_disagrees : Reachable tinyCbor fullSystem ∧
    getConfigUint tinyCbor (fullSystem.configs .user).ramBuffer [0x61, 0x62] 2 = some 1 ∧
    (setConfigUint tinyCbor (fullSystem.configs .user) [0x61, 0x62] 2 2).2 = false ∧
    (setConfigCbor tinyCbor (fullSystem.configs .user) [0x61, 0x62] 2
      (CborItem.uint 2).encoded).2 = true ∧
    ¬ PathsAgree tinyCbor (fullSystem.configs .user) [0x61, 0x62] 2 (.uint 2) := by
  have htyped : (setConfigUint tinyCbor (fullSystem.configs .user) [0x61, 0x62] 2 2).2 = false := by
    decide +kernel
  have hencoded : (setConfigCbor tinyCbor (fullSystem.configs .user) [0x61, 0x62] 2
      (CborItem.uint 2).encoded).2 = true := by
    decide +kernel
  refine ⟨fullSystem_reachable, by decide +kernel, htyped, hencoded, fun hagree => ?_⟩
  exact Bool.false_ne_true (htyped.symm.trans (hagree.1.trans hencoded))

end BmCore.Configuration
