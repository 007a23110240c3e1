import BmCore.Configuration.SetGet

/-!
# Failed writes

The setters for one type encode into the slot of a stored key before they know if the value fits,
and TinyCBOR writes the header of a string first. A failing setter leaves every reading as it was,
except for a string that is too long for the slot of its key. Without such strings a partition that
needs no commit reads as it did when it was saved or loaded last.
-/
namespace BmCore.Configuration
open Library

/-- A setter that fails changes neither a reading nor `needs_commit`. -/
def Atomic (cbor : TinyCbor) (info : ConfigInfo) (key : List UInt8) (keyLen : Nat)
    (call : SetCall) : Prop :=
  let result := setCall cbor info key keyLen call
  result.2 = false → result.1.needsCommit = info.needsCommit ∧
    ∀ key' keyLen',
      readings cbor result.1.ramBuffer key' keyLen' = readings cbor info.ramBuffer key' keyLen'

/-- The value is longer than the slot of its key, which does not begin with the header of the value
already. With 50 keys nothing is encoded. -/
def Overruns (info : ConfigInfo) (key : List UInt8) (keyLen : Nat) (call : SetCall) : Prop :=
  ∃ item idx, call = .typed item ∧
    maxConfigBufferSizeBytes < item.encoding.1.length + item.encoding.2.length ∧
    keyLen ≤ maxKeyLenBytes ∧ info.ramBuffer.numKeys < maxNumKv ∧
    findKeyIdx info.ramBuffer key keyLen = some idx ∧
    ¬ item.encoding.1 <+: (info.ramBuffer.values idx).bytes

/-! ## One call -/

section Call
variable {cbor : TinyCbor} {info : ConfigInfo} {key : List UInt8} {keyLen idx : Nat}
  {item : CborItem}

/-- What does not fit leaves its header. -/
theorem TinyCbor.HeaderFirst.overrun (hfirst : cbor.HeaderFirst) (item : CborItem)
    (buf : ConfigValue) :
    ((cbor.encode item buf).2 = false ↔
      maxConfigBufferSizeBytes < item.encoding.1.length + item.encoding.2.length) ∧
    ((cbor.encode item buf).2 = false → (cbor.encode item buf).1 = buf.put item.encoding.1) := by
  have hhead : item.encoding.1.length ≤ maxConfigBufferSizeBytes :=
    (encoding_length_le item).trans (by decide)
  rw [hfirst.encode, writeItem, if_pos hhead]
  split
  · rename_i hle
    simpa using hle
  · rename_i hle
    exact ⟨⟨fun _ => Nat.lt_of_not_le hle, fun _ => rfl⟩, fun _ => rfl⟩

theorem put_of_begins {n : Nat} {b : Buffer n} {l : List UInt8} (h : l <+: b.bytes) :
    b.put l = b := by
  obtain ⟨r, hr⟩ := h
  have hle : l.length ≤ n := by
    rw [← b.length_eq, ← hr, List.length_append]
    omega
  refine Buffer.ext_bytes ?_
  rw [b.put_bytes hle, ← hr, List.drop_left]

theorem setCall_overrun (hlen : keyLen ≤ maxKeyLenBytes)
    (hroom : info.ramBuffer.numKeys < maxNumKv)
    (hfound : findKeyIdx info.ramBuffer key keyLen = some idx)
    (hfails : (cbor.encode item (info.ramBuffer.values idx)).2 = false) :
    setCall cbor info key keyLen (.typed item) =
      ({ info with
          ramBuffer := (info.ramBuffer.writeKeyBuf idx key).writeValue idx
            (cbor.encode item (info.ramBuffer.values idx)).1 }, false) := by
  have hvalue : (info.ramBuffer.writeKeyBuf idx key).values idx = info.ramBuffer.values idx := rfl
  cases item <;>
    simp only [setCall, setConfigUint, setConfigInt, setConfigFloat, setConfigString,
      setConfigBuffer, setConfig, prepareCborEncoder, if_neg (Nat.not_lt.mpr hlen),
      if_neg (Nat.not_le.mpr hroom), hfound, hvalue, hfails, Bool.not_false, if_true]

/-- The key is found again where its buffer has been rewritten. -/
theorem findKeyIdx_rewritten (h : Sound info.ramBuffer)
    (hfound : findKeyIdx info.ramBuffer key keyLen = some idx) (value : ConfigValue)
    (key' : List UInt8) (keyLen' : Nat) :
    findKeyIdx ((info.ramBuffer.writeKeyBuf idx key).writeValue idx value) key' keyLen' =
      findKeyIdx info.ramBuffer key' keyLen' := by
  apply findKeyIdx_congr
  · rfl
  intro i hi
  rw [writeKeyBuf_eq, writeValue_writeEntry, writeEntry_keys]
  rcases eq_or_ne i idx with rfl | hne
  · rw [Function.update_self]
    exact name_rewritten h hfound (congrArg Prod.fst (findKeyIdx_eq_some.mp hfound).2.1) (.inl rfl)
  · rw [Function.update_of_ne hne]

theorem atomic_of_not_overruns (hfirst : cbor.HeaderFirst) (h : Sound info.ramBuffer)
    {call : SetCall} (hnot : ¬ Overruns info key keyLen call) :
    Atomic cbor info key keyLen call := by
  have hset := setCall_sets cbor info key keyLen call
  unfold Atomic
  generalize setCall cbor info key keyLen call = result at hset
  intro result' hfalse
  cases hset with
  | refused => exact ⟨rfl, fun _ _ => rfl⟩
  | abandoned k v absent =>
    refine ⟨rfl, fun key' keyLen' => readings_congr cbor ?_⟩
    have hfind : findKeyIdx (info.ramBuffer.writeEntry info.ramBuffer.numKeys k v) key' keyLen' =
        findKeyIdx info.ramBuffer key' keyLen' := by
      apply findKeyIdx_congr
      · rfl
      intro i hi
      rw [writeEntry_keys, Function.update_of_ne (Nat.ne_of_lt hi)]
    dsimp only [result', slotOf]
    rw [hfind]
    cases hidx : findKeyIdx info.ramBuffer key' keyLen' with
    | none => rfl
    | some i =>
      have hi := (findKeyIdx_eq_some.mp hidx).1
      rw [Option.map_some, Option.map_some, writeEntry_values,
        Function.update_of_ne (Nat.ne_of_lt hi)]
  | overrun item idx typed keyLen_le room found fails =>
    refine ⟨rfl, fun key' keyLen' => readings_congr cbor ?_⟩
    obtain ⟨hlong, hput⟩ := hfirst.overrun item (info.ramBuffer.values idx)
    have hbegins : item.encoding.1 <+: (info.ramBuffer.values idx).bytes := by
      by_contra hne
      exact hnot ⟨item, idx, typed, hlong.mp fails, keyLen_le, room, found, hne⟩
    have hslot : (cbor.encode item (info.ramBuffer.values idx)).1 = info.ramBuffer.values idx :=
      (hput fails).trans (put_of_begins hbegins)
    dsimp only [result', slotOf]
    rw [findKeyIdx_rewritten h found, hslot]
    simp [ConfigPartition.writeValue, ConfigPartition.writeKeyBuf]
  | replaced => simp [result'] at hfalse
  | appended => simp [result'] at hfalse

theorem not_atomic_of_overruns (hfirst : cbor.HeaderFirst) (h : Sound info.ramBuffer)
    {call : SetCall} (hover : Overruns info key keyLen call) :
    ¬ Atomic cbor info key keyLen call := by
  obtain ⟨item, idx, rfl, hlong, hlen, hroom, hfound, hbegins⟩ := hover
  obtain ⟨hfails, hput⟩ := hfirst.overrun item (info.ramBuffer.values idx)
  have hhead : item.encoding.1.length ≤ maxConfigBufferSizeBytes :=
    (encoding_length_le item).trans (by decide)
  have hfails' := hfails.mpr hlong
  have hbytes := (info.ramBuffer.values idx).put_bytes hhead
  intro hatomic
  rw [Atomic, setCall_overrun hlen hroom hfound hfails', hput hfails'] at hatomic
  have hread := congrArg (fun r => r.cbor maxConfigBufferSizeBytes) ((hatomic rfl).2 key keyLen)
  dsimp only [readings] at hread
  -- the slot is returned as it is now
  have hafter : prepareCborParser cbor ((info.ramBuffer.writeKeyBuf idx key).writeValue idx
      ((info.ramBuffer.values idx).put item.encoding.1)) key keyLen =
        some ((info.ramBuffer.values idx).put item.encoding.1) := by
    refine (prepareCborParser_eq_some cbor).mpr ⟨hlen, ?_, ?_⟩
    · rw [slotOf, findKeyIdx_rewritten h hfound, hfound]
      simp [ConfigPartition.writeValue]
    · rw [hbytes]
      exact hfirst.init item _
  rw [getConfigCbor_eq, hafter, Option.bind_some, if_neg (by rw [hbytes]; exact hfirst.type item _),
    if_neg (Nat.lt_irrefl _), getConfigCbor_eq] at hread
  obtain ⟨it, hit, hsome⟩ := Option.bind_eq_some_iff.mp hread.symm
  have hslot := ((prepareCborParser_eq_some cbor).mp hit).2.1
  rw [slotOf, hfound, Option.map_some] at hslot
  split_ifs at hsome
  refine hbegins ⟨(info.ramBuffer.values idx).bytes.drop item.encoding.1.length, ?_⟩
  rw [← hbytes, ← Option.some.inj hsome, Option.some.inj hslot]

end Call

/-! ## Runs -/

/-- The system with the contents of its partitions at the last commit: when they were saved or
loaded last. -/
structure Committed where
  system : System
  contents : BmConfigPartition → ConfigPartition

def commitStep (cbor : TinyCbor) (t : Committed) (op : Op) : Committed where
  system := step cbor t.system op
  contents := match op with
    | .store .. => t.contents
    | .save partition true =>
      Function.update t.contents partition ((step cbor t.system op).configs partition).ramBuffer
    | .save _ false => t.contents
    | .boot .. => fun partition => ((step cbor t.system op).configs partition).ramBuffer

/-- No setter is given a string that is too long for the slot of its key. -/
def NoOverrun (s : System) : Op → Prop
  | .store partition (.set key keyLen call) => ¬ Overruns (s.configs partition) key keyLen call
  | _ => True

/-- What needs no commit reads as it did at the last one. -/
structure Clean (cbor : TinyCbor) (t : Committed) : Prop where
  sound : SystemSound t.system
  readings : ∀ partition, (t.system.configs partition).needsCommit = false → ∀ key keyLen,
    readings cbor (t.system.configs partition).ramBuffer key keyLen =
      readings cbor (t.contents partition) key keyLen

section Runs
variable {cbor : TinyCbor}

/-- A call that leaves no commit to be made has changed no reading. -/
theorem storeOp_clean (hfirst : cbor.HeaderFirst) {s : System} {partition : BmConfigPartition}
    (h : Sound (s.configs partition).ramBuffer) {op : StoreOp}
    (hop : NoOverrun s (.store partition op))
    (hclean : (storeOp cbor (s.configs partition) op).1.needsCommit = false) :
    (s.configs partition).needsCommit = false ∧ ∀ key keyLen,
      readings cbor (storeOp cbor (s.configs partition) op).1.ramBuffer key keyLen =
        readings cbor (s.configs partition).ramBuffer key keyLen := by
  cases op with
  | set key keyLen call =>
    have hatomic := atomic_of_not_overruns hfirst h hop
    have hset := setCall_sets cbor (s.configs partition) key keyLen call
    dsimp only [Atomic, storeOp] at hatomic hclean ⊢
    generalize setCall cbor (s.configs partition) key keyLen call = result at *
    have hfalse : result.2 = false := by
      cases hset with
      | replaced => simp at hclean
      | appended => simp at hclean
      | refused => rfl
      | abandoned => rfl
      | overrun => rfl
    obtain ⟨hcommit, hread⟩ := hatomic hfalse
    exact ⟨hcommit.symm.trans hclean, hread⟩
  | remove key keyLen =>
    rcases removeKey_cases (s.configs partition) key keyLen with
      ⟨-, hremove⟩ | ⟨idx, p, -, hremove, -⟩
    · rw [storeOp, hremove] at hclean ⊢
      exact ⟨hclean, fun _ _ => rfl⟩
    · rw [storeOp, hremove] at hclean
      simp at hclean
  | clear => simp [storeOp, clearPartition] at hclean

/-- `save_config` changes the checksum only. -/
theorem readings_saveConfig (info : ConfigInfo) (written : Bool) (key : List UInt8) (keyLen : Nat) :
    readings cbor (saveConfig info written).1.ramBuffer key keyLen =
      readings cbor info.ramBuffer key keyLen := by
  refine readings_congr cbor ?_
  cases written <;> rfl

theorem Clean.commitStep (hfirst : cbor.HeaderFirst) {t : Committed} (h : Clean cbor t) {op : Op}
    (hop : NoOverrun t.system op) : Clean cbor (commitStep cbor t op) := by
  refine ⟨h.sound.step op, fun q hclean key keyLen => ?_⟩
  cases op with
  | store partition op =>
    rcases eq_or_ne q partition with rfl | hne
    · simp only [Configuration.commitStep, step, Function.update_self] at hclean ⊢
      obtain ⟨hbefore, hread⟩ := storeOp_clean hfirst (h.sound.configs q) hop hclean
      rw [hread, h.readings q hbefore]
    · simp only [Configuration.commitStep, step, Function.update_of_ne hne] at hclean ⊢
      exact h.readings q hclean key keyLen
  | save partition written =>
    rcases eq_or_ne q partition with rfl | hne
    · cases written with
      | true => simp only [Configuration.commitStep, step, Function.update_self]
      | false =>
        simp only [Configuration.commitStep, step, Function.update_self] at hclean ⊢
        rw [readings_saveConfig]
        exact h.readings q hclean key keyLen
    · cases written <;>
        simp only [Configuration.commitStep, step, Function.update_of_ne hne] at hclean ⊢ <;>
        exact h.readings q hclean key keyLen
  | boot ram readable => rfl

end Runs

/-- In every reachable store a failing setter changes nothing that can be read exactly if it is not
given a string that is too long for the slot of its key. In every run without such strings, what
needs no commit reads as it did at the last commit. -/
theorem failed_set_atomic_iff (cbor : TinyCbor) (hfirst : cbor.HeaderFirst) :
    (∀ s, Reachable cbor s → ∀ partition key keyLen call,
      Atomic cbor (s.configs partition) key keyLen call ↔
        ¬ Overruns (s.configs partition) key keyLen call) ∧
    ∀ s₀ ops, Initial s₀ → Along (step cbor) NoOverrun s₀ ops →
      let t := ops.foldl (commitStep cbor) ⟨s₀, fun partition => (s₀.configs partition).ramBuffer⟩
      t.system = ops.foldl (step cbor) s₀ ∧
      ∀ partition, (t.system.configs partition).needsCommit = false → ∀ key keyLen,
        readings cbor (t.system.configs partition).ramBuffer key keyLen =
          readings cbor (t.contents partition) key keyLen := by
  refine ⟨fun s hs partition key keyLen call => ⟨fun hatomic hover => ?_, fun hnot => ?_⟩,
    fun s₀ ops hinit halong => ⟨foldl_observer (fun _ _ => rfl) _ ops, ?_⟩⟩
  · exact not_atomic_of_overruns hfirst (hs.sound.configs partition) hover hatomic
  · exact atomic_of_not_overruns hfirst (hs.sound.configs partition) hnot
  · have hclean : Clean cbor ⟨s₀, fun partition => (s₀.configs partition).ramBuffer⟩ :=
      ⟨hinit.sound, fun _ _ _ _ => rfl⟩
    exact (foldl_invariant (fun _ _ h hop => h.commitStep hfirst hop) hclean
      (along_observer (fun _ _ => rfl) halong)).readings

/-- A key is set and saved. -/
def savedFive : System :=
  [.store .user (.set [0x61] 1 (.typed (.uint 5))), .save .user true].foldl (step tinyCbor)
    freshSystem

theorem savedFive_reachable : Reachable tinyCbor savedFive := ⟨_, _, freshSystem_initial, rfl⟩

/-- A string of 60 bytes. -/
def sixty : CborItem := .text (List.replicate 60 0x62)

/-- Another key is not affected. -/
theorem atomic_savedFive : Atomic tinyCbor (savedFive.configs .user) [0x63] 1 (.typed sixty) := by
  refine ((failed_set_atomic_iff tinyCbor tinyCbor_headerFirst).1 savedFive savedFive_reachable
    .user [0x63] 1 (.typed sixty)).mpr ?_
  rintro ⟨item, idx, -, -, -, -, hfound, -⟩
  have hnone : findKeyIdx (savedFive.configs .user).ramBuffer [0x63] 1 = none := by decide +kernel
  rw [hnone] at hfound
  simp at hfound

/-- The saved value is lost without a commit being needed. -/
theorem savedFive_lost : Reachable tinyCbor savedFive ∧
    getConfigUint tinyCbor (savedFive.configs .user).ramBuffer [0x61] 1 = some 5 ∧
    (setCall tinyCbor (savedFive.configs .user) [0x61] 1 (.typed sixty)).2 = false ∧
    (setCall tinyCbor (savedFive.configs .user) [0x61] 1 (.typed sixty)).1.needsCommit = false ∧
    getConfigUint tinyCbor
      (setCall tinyCbor (savedFive.configs .user) [0x61] 1 (.typed sixty)).1.ramBuffer [0x61] 1 =
        none ∧
    ¬ Atomic tinyCbor (savedFive.configs .user) [0x61] 1 (.typed sixty) := by
  have hbefore : getConfigUint tinyCbor (savedFive.configs .user).ramBuffer [0x61] 1 = some 5 := by
    decide +kernel
  have hfalse : (setCall tinyCbor (savedFive.configs .user) [0x61] 1 (.typed sixty)).2 = false := by
    decide +kernel
  have hafter : getConfigUint tinyCbor
      (setCall tinyCbor (savedFive.configs .user) [0x61] 1 (.typed sixty)).1.ramBuffer [0x61] 1 =
        none := by decide +kernel
  refine ⟨savedFive_reachable, hbefore, hfalse, by decide +kernel, hafter, fun hatomic => ?_⟩
  have hread := congrArg Readings.uint ((hatomic hfalse).2 [0x61] 1)
  dsimp only [readings] at hread
  rw [hafter, hbefore] at hread
  simp at hread

end BmCore.Configuration
