import BmCore.Configuration.Calls
import BmCore.Library.Runs

/-!
# Runs of the configuration store

The partitions with their images in flash, and the calls on them. A run starts on a device without a
valid image. Whatever keys the calls are given, the keys of a partition stay terminated, and no two
of them have the same name, if they are shorter than their buffers.
-/
namespace BmCore.Configuration
open Library

/-! ## The machine -/

/-- A call that changes a partition. -/
inductive StoreOp where
  | set (key : List UInt8) (keyLen : Nat) (call : SetCall)
  | remove (key : List UInt8) (keyLen : Nat)
  | clear

def storeOp (cbor : TinyCbor) (info : ConfigInfo) : StoreOp → ConfigInfo × Bool
  | .set key keyLen call => setCall cbor info key keyLen call
  | .remove key keyLen => removeKey info key keyLen
  | .clear => clearPartition

/-- `CONFIGS`, and what was written to flash last. -/
structure System where
  configs : BmConfigPartition → ConfigInfo
  nvm : BmConfigPartition → Option ConfigPartition

inductive Op where
  | store (partition : BmConfigPartition) (op : StoreOp)
  /-- `save_config` with the result of `bm_config_write`. -/
  | save (partition : BmConfigPartition) (written : Bool)
  /-- A restart with any RAM; some images can be read. -/
  | boot (ram : BmConfigPartition → ConfigPartition) (readable : BmConfigPartition → Bool)

def step (cbor : TinyCbor) (s : System) : Op → System
  | .store partition op =>
    { s with
      configs := Function.update s.configs partition (storeOp cbor (s.configs partition) op).1 }
  | .save partition written =>
    let saved := saveConfig (s.configs partition) written
    ⟨Function.update s.configs partition saved.1,
      if saved.2 then Function.update s.nvm partition (some saved.1.ramBuffer) else s.nvm⟩
  | .boot ram readable =>
    { s with
      configs := fun partition => configInit ⟨ram partition, false⟩
        (if readable partition then s.nvm partition else none) }

/-- After `config_init` on a device without a valid image. -/
structure Initial (s : System) : Prop where
  numKeys : ∀ partition, (s.configs partition).ramBuffer.numKeys = 0
  needsCommit : ∀ partition, (s.configs partition).needsCommit = false
  nvm : ∀ partition image, s.nvm partition = some image → image.crc32 ≠ crc32Ieee image.body

def Reachable (cbor : TinyCbor) (s : System) : Prop :=
  ∃ s₀ ops, Initial s₀ ∧ s = List.foldl (step cbor) s₀ ops

/-! ## Stored keys -/

/-- What the stored keys of a partition satisfy. -/
structure Sound (p : ConfigPartition) : Prop where
  numKeys_le : p.numKeys ≤ maxNumKv
  keyLen_le : ∀ i < p.numKeys, (p.keys i).keyLen ≤ maxKeyLenBytes
  terminated : ∀ i < p.numKeys, (cString (p.keys i).keyBuf.bytes).length < maxKeyLenBytes
  distinct : ∀ i < p.numKeys, ∀ j < p.numKeys, (p.keys i).keyLen < maxKeyLenBytes →
    (p.keys i).name = (p.keys j).name → i = j

section Keys
variable {p : ConfigPartition} {key : List UInt8} {keyLen idx : Nat} {k : ConfigKey}
  {old : Buffer maxKeyLenBytes}

theorem cString_stored (hbuf : k.keyBuf = snprintf old key) :
    cString k.keyBuf.bytes = (cString key).take (maxKeyLenBytes - 1) := by
  rw [hbuf, cString_snprintf (by decide)]

theorem terminated_stored (hbuf : k.keyBuf = snprintf old key) :
    (cString k.keyBuf.bytes).length < maxKeyLenBytes := by
  rw [cString_stored hbuf, List.length_take, maxKeyLenBytes]
  omega

/-- A key that is not cut is stored under its name. -/
theorem name_stored (hbuf : k.keyBuf = snprintf old key) (hlen : k.keyLen = keyLen)
    (h : keyLen < maxKeyLenBytes ∨ (cString key).length < maxKeyLenBytes) :
    k.name = nameOf key keyLen := by
  rw [ConfigKey.name, nameOf, nameOf, cString_stored hbuf, hlen, List.take_take]
  rcases h with h | h
  · rw [Nat.min_eq_left (by omega)]
  · refine Prod.ext rfl (List.take_eq_take_iff.mpr ?_)
    omega

/-- Writing a key again does not change its name. -/
theorem name_rewritten (h : Sound p) (hfound : findKeyIdx p key keyLen = some idx)
    (hlen : k.keyLen = keyLen)
    (hbuf : k.keyBuf = snprintf (p.keys idx).keyBuf key ∨ k.keyBuf = (p.keys idx).keyBuf) :
    k.name = (p.keys idx).name := by
  obtain ⟨hidx, hname, -⟩ := findKeyIdx_eq_some.mp hfound
  have hlen' : (p.keys idx).keyLen = keyLen := congrArg Prod.fst hname
  rcases hbuf with hbuf | hbuf
  · rw [hname]
    refine name_stored hbuf hlen ?_
    by_cases hshort : keyLen < maxKeyLenBytes
    · exact .inl hshort
    -- a longer string at the pointer would not have matched a terminated key
    · refine .inr (Nat.lt_of_not_le fun hlong => ?_)
      have hstring := congrArg List.length (Prod.mk.inj hname).2
      have hterm := h.terminated idx hidx
      have hle := h.keyLen_le idx hidx
      rw [List.length_take, List.length_take] at hstring
      omega
  · rw [ConfigKey.name, ConfigKey.name, hbuf, hlen, hlen']

theorem Sound.replace (h : Sound p) (hidx : idx < p.numKeys) (hname : k.name = (p.keys idx).name)
    (hterm : (cString k.keyBuf.bytes).length < maxKeyLenBytes) (v : ConfigValue) :
    Sound (p.writeEntry idx k v) := by
  have hlen : k.keyLen = (p.keys idx).keyLen := congrArg Prod.fst hname
  have hnames : ∀ i, (Function.update p.keys idx k i).name = (p.keys i).name := by
    intro i
    rcases eq_or_ne i idx with rfl | hne
    · rw [Function.update_self, hname]
    · rw [Function.update_of_ne hne]
  have hlens : ∀ i, (Function.update p.keys idx k i).keyLen = (p.keys i).keyLen :=
    fun i => congrArg Prod.fst (hnames i)
  refine ⟨h.numKeys_le, fun i hi => ?_, fun i hi => ?_, fun i hi j hj => ?_⟩
  · rw [writeEntry_keys, hlens]
    exact h.keyLen_le i hi
  · rw [writeEntry_keys]
    rcases eq_or_ne i idx with rfl | hne
    · rw [Function.update_self]
      exact hterm
    · rw [Function.update_of_ne hne]
      exact h.terminated i hi
  · rw [writeEntry_keys, hlens, hnames, hnames]
    exact h.distinct i hi j hj

/-- What is behind the keys does not count. -/
theorem Sound.congr {p' : ConfigPartition} (h : Sound p) (hnum : p'.numKeys = p.numKeys)
    (hkeys : ∀ i < p.numKeys, p'.keys i = p.keys i) : Sound p' := by
  refine ⟨hnum ▸ h.numKeys_le, fun i hi => ?_, fun i hi => ?_, fun i hi j hj => ?_⟩
  · rw [hkeys i (hnum ▸ hi)]
    exact h.keyLen_le i (hnum ▸ hi)
  · rw [hkeys i (hnum ▸ hi)]
    exact h.terminated i (hnum ▸ hi)
  · rw [hkeys i (hnum ▸ hi), hkeys j (hnum ▸ hj)]
    exact h.distinct i (hnum ▸ hi) j (hnum ▸ hj)

theorem Sound.append (h : Sound p) (hroom : p.numKeys < maxNumKv) (hlen : k.keyLen ≤ maxKeyLenBytes)
    (hterm : (cString k.keyBuf.bytes).length < maxKeyLenBytes)
    (hnew : k.keyLen < maxKeyLenBytes → ∀ i < p.numKeys, (p.keys i).name ≠ k.name)
    (v : ConfigValue) :
    Sound { p.writeEntry p.numKeys k v with numKeys := p.numKeys + 1 } := by
  have hcases : ∀ i < p.numKeys + 1, (i = p.numKeys ∧ Function.update p.keys p.numKeys k i = k) ∨
      (i < p.numKeys ∧ Function.update p.keys p.numKeys k i = p.keys i) := by
    intro i hi
    rcases eq_or_ne i p.numKeys with rfl | hne
    · exact .inl ⟨rfl, Function.update_self ..⟩
    · exact .inr ⟨by omega, Function.update_of_ne hne ..⟩
  refine ⟨hroom, fun i hi => ?_, fun i hi => ?_, fun i hi j hj => ?_⟩
  · rcases hcases i hi with ⟨-, heq⟩ | ⟨hi', heq⟩
    · rwa [writeEntry_keys, heq]
    · rw [writeEntry_keys, heq]
      exact h.keyLen_le i hi'
  · rcases hcases i hi with ⟨-, heq⟩ | ⟨hi', heq⟩
    · rwa [writeEntry_keys, heq]
    · rw [writeEntry_keys, heq]
      exact h.terminated i hi'
  · rw [writeEntry_keys]
    rcases hcases i hi with ⟨rfl, hi'⟩ | ⟨hi', heq⟩
    · rcases hcases j hj with ⟨rfl, -⟩ | ⟨hj', heq'⟩
      · exact fun _ _ => rfl
      · rw [hi', heq']
        exact fun hshort hname => absurd hname.symm (hnew hshort j hj')
    · rcases hcases j hj with ⟨rfl, hj'⟩ | ⟨hj', heq'⟩
      · rw [heq, hj']
        intro hshort hname
        have hlen' : (p.keys i).keyLen = k.keyLen := congrArg Prod.fst hname
        exact absurd hname (hnew (hlen' ▸ hshort) i hi')
      · rw [heq, heq']
        exact h.distinct i hi' j hj'

/-- The index of what is at an index behind the removal of a key. -/
def skip (idx i : Nat) : Nat := if i < idx then i else i + 1

theorem skip_inj {i j : Nat} (h : skip idx i = skip idx j) : i = j := by
  unfold skip at h
  split at h <;> split at h <;> omega

/-- `remove_key` moves up what is behind the key. -/
theorem removeKey_cases (info : ConfigInfo) (key : List UInt8) (keyLen : Nat) :
    (findKeyIdx info.ramBuffer key keyLen = none ∧ removeKey info key keyLen = (info, false)) ∨
      ∃ idx p, findKeyIdx info.ramBuffer key keyLen = some idx ∧
        removeKey info key keyLen = (⟨p, true⟩, true) ∧
        p.numKeys = info.ramBuffer.numKeys - 1 ∧
        (∀ i < p.numKeys, p.keys i = info.ramBuffer.keys (skip idx i)) ∧
        ∀ i < p.numKeys, p.values i = info.ramBuffer.values (skip idx i) := by
  cases hfind : findKeyIdx info.ramBuffer key keyLen with
  | none =>
    refine .inl ⟨rfl, ?_⟩
    simp only [removeKey, hfind]
  | some idx =>
    refine .inr ⟨idx, _, rfl, by simp only [removeKey, hfind]; rfl, ?_, fun i hi => ?_,
      fun i hi => ?_⟩
    · dsimp only
      split <;> rfl
    all_goals
      dsimp only at hi ⊢
      unfold skip
      split at hi
      · rename_i hmove
        rw [if_pos hmove]
        by_cases hlt : i < idx
        · simp [hlt, Nat.not_le_of_lt hlt]
        · simp only [hlt, if_false]
          rw [if_pos ⟨by omega, hi⟩]
      · rename_i hlast
        rw [if_neg hlast, if_pos (by omega)]

theorem Sound.remove (h : Sound p) {p' : ConfigPartition} (hnum : p'.numKeys = p.numKeys - 1)
    (hkeys : ∀ i < p'.numKeys, p'.keys i = p.keys (skip idx i)) : Sound p' := by
  have hskip : ∀ i < p'.numKeys, skip idx i < p.numKeys := by
    intro i hi
    unfold skip
    split <;> omega
  have hle := h.numKeys_le
  refine ⟨by omega, fun i hi => ?_, fun i hi => ?_, fun i hi j hj => ?_⟩
  · rw [hkeys i hi]
    exact h.keyLen_le _ (hskip i hi)
  · rw [hkeys i hi]
    exact h.terminated _ (hskip i hi)
  · rw [hkeys i hi, hkeys j hj]
    exact fun hlen hname => skip_inj (h.distinct _ (hskip i hi) _ (hskip j hj) hlen hname)

theorem Sound.of_empty (h : p.numKeys = 0) : Sound p := by
  refine ⟨by omega, fun i hi => ?_, fun i hi => ?_, fun i hi => ?_⟩ <;> omega

end Keys

/-! ## Steps -/

section Steps
variable {cbor : TinyCbor}

theorem Sets.sound {info : ConfigInfo} {key : List UInt8} {keyLen : Nat} {call : SetCall}
    {result : ConfigInfo × Bool} (hset : Sets cbor info key keyLen call result)
    (h : Sound info.ramBuffer) : Sound result.1.ramBuffer := by
  have hterm : ∀ {idx k}, idx < info.ramBuffer.numKeys →
      (k : ConfigKey).keyBuf = snprintf (info.ramBuffer.keys idx).keyBuf key ∨
        k.keyBuf = (info.ramBuffer.keys idx).keyBuf →
      (cString k.keyBuf.bytes).length < maxKeyLenBytes := by
    intro idx k hidx hbuf
    rcases hbuf with hbuf | hbuf
    · exact terminated_stored hbuf
    · rw [hbuf]
      exact h.terminated idx hidx
  cases hset with
  | refused => exact h
  | abandoned k v absent =>
    refine h.congr rfl fun i hi => ?_
    simp only [writeEntry_keys]
    exact Function.update_of_ne (by omega) ..
  | overrun item idx typed keyLen_le room found fails =>
    have hidx := (findKeyIdx_eq_some.mp found).1
    have hlen : (info.ramBuffer.keys idx).keyLen = keyLen :=
      congrArg Prod.fst (findKeyIdx_eq_some.mp found).2.1
    let k : ConfigKey := { info.ramBuffer.keys idx with
      keyBuf := snprintf (info.ramBuffer.keys idx).keyBuf key }
    have hname : k.name = (info.ramBuffer.keys idx).name := name_rewritten h found hlen (.inl rfl)
    dsimp only
    rw [writeKeyBuf_eq, writeValue_writeEntry]
    exact h.replace hidx hname (hterm hidx (.inl rfl)) _
  | replaced idx k v keyLen_le found keyLen_eq keyBuf stores =>
    have hidx := (findKeyIdx_eq_some.mp found).1
    exact h.replace hidx (name_rewritten h found keyLen_eq keyBuf) (hterm hidx keyBuf) _
  | appended k v keyLen_le absent valid room keyLen_eq keyBuf stores =>
    refine h.append room (keyLen_eq ▸ keyLen_le) (terminated_stored keyBuf)
      (fun hshort i hi => ?_) v
    rw [name_stored keyBuf keyLen_eq (.inl (keyLen_eq ▸ hshort))]
    exact findKeyIdx_eq_none.mp absent i hi

theorem storeOp_sound {info : ConfigInfo} (h : Sound info.ramBuffer) (op : StoreOp) :
    Sound (storeOp cbor info op).1.ramBuffer := by
  cases op with
  | set key keyLen call => exact (setCall_sets cbor info key keyLen call).sound h
  | remove key keyLen =>
    rcases removeKey_cases info key keyLen with ⟨-, hremove⟩ | ⟨idx, p, -, hremove, hnum, hkeys, -⟩
    · rw [storeOp, hremove]
      exact h
    · rw [storeOp, hremove]
      exact h.remove hnum hkeys
  | clear => exact .of_empty rfl

/-- `config_init` loads a valid image or leaves no keys. -/
theorem configInit_cases (info : ConfigInfo) (read : Option ConfigPartition) :
    (configInit info read).ramBuffer.numKeys = 0 ∨ ∃ image, read = some image ∧
      image.crc32 = crc32Ieee image.body ∧ (configInit info read).ramBuffer = image := by
  unfold configInit
  cases read with
  | none => exact .inl rfl
  | some image =>
    dsimp only [loadAndVerifyNvmConfig]
    split
    · rename_i hok
      exact .inr ⟨image, rfl, by simpa using hok, rfl⟩
    · exact .inl rfl

/-! ## Invariants of partitions -/

/-- Every call keeps the property, and it says nothing about the checksum. -/
structure StoreInvariant (cbor : TinyCbor) (I : ConfigPartition → Prop) : Prop where
  empty : ∀ p, p.numKeys = 0 → I p
  checksum : ∀ p crc32, I p → I { p with crc32 }
  op : ∀ info op, I info.ramBuffer → I (storeOp cbor info op).1.ramBuffer

/-- The partitions have the property, and so has every valid image of one. -/
structure Everywhere (I : ConfigPartition → Prop) (s : System) : Prop where
  configs : ∀ partition, I (s.configs partition).ramBuffer
  nvm : ∀ partition image, s.nvm partition = some image → image.crc32 = crc32Ieee image.body →
    I image

section Invariants
variable {I : ConfigPartition → Prop} {s : System}

theorem StoreInvariant.initial (h : StoreInvariant cbor I) (hs : Initial s) : Everywhere I s :=
  ⟨fun partition => h.empty _ (hs.numKeys partition),
    fun partition image himage hcrc => absurd hcrc (hs.nvm partition image himage)⟩

theorem StoreInvariant.step (h : StoreInvariant cbor I) (hs : Everywhere I s) (op : Op) :
    Everywhere I (step cbor s op) := by
  have hsaved : ∀ partition written, I (saveConfig (s.configs partition) written).1.ramBuffer := by
    intro partition written
    unfold saveConfig
    split <;> exact h.checksum _ _ (hs.configs partition)
  cases op with
  | store partition op =>
    refine ⟨fun q => ?_, hs.nvm⟩
    rcases eq_or_ne q partition with rfl | hne
    · simp only [Configuration.step, Function.update_self]
      exact h.op _ op (hs.configs q)
    · simp only [Configuration.step, Function.update_of_ne hne]
      exact hs.configs q
  | save partition written =>
    refine ⟨fun q => ?_, fun q image himage hcrc => ?_⟩
    · rcases eq_or_ne q partition with rfl | hne
      · simp only [Configuration.step, Function.update_self]
        exact hsaved q written
      · simp only [Configuration.step, Function.update_of_ne hne]
        exact hs.configs q
    · simp only [Configuration.step] at himage
      split at himage
      · rcases eq_or_ne q partition with rfl | hne
        · rw [Function.update_self] at himage
          exact Option.some.inj himage ▸ hsaved q written
        · rw [Function.update_of_ne hne] at himage
          exact hs.nvm q image himage hcrc
      · exact hs.nvm q image himage hcrc
  | boot ram readable =>
    refine ⟨fun q => ?_, hs.nvm⟩
    simp only [Configuration.step]
    rcases configInit_cases ⟨ram q, false⟩ (if readable q then s.nvm q else none) with
      hempty | ⟨image, himage, hcrc, hloaded⟩
    · exact h.empty _ hempty
    · rw [hloaded]
      split at himage
      · exact hs.nvm q image himage hcrc
      · simp at himage

theorem StoreInvariant.reachable (h : StoreInvariant cbor I) (hs : Reachable cbor s) :
    Everywhere I s := by
  obtain ⟨s₀, ops, hinit, rfl⟩ := hs
  have hrun : Along (Configuration.step cbor) (fun _ _ => True) s₀ ops := by
    clear hinit
    induction ops generalizing s₀ with
    | nil => trivial
    | cons op ops ih => exact ⟨trivial, ih _⟩
  have hkeeps : ∀ s op, Everywhere I s → True → Everywhere I (Configuration.step cbor s op) :=
    fun _ op hs _ => h.step hs op
  exact foldl_invariant hkeeps (h.initial hinit) hrun

end Invariants

/-- The partitions are sound, and so is every valid image of one. -/
structure SystemSound (s : System) : Prop where
  configs : ∀ partition, Sound (s.configs partition).ramBuffer
  nvm : ∀ partition image, s.nvm partition = some image → image.crc32 = crc32Ieee image.body →
    Sound image

theorem sound_invariant (cbor : TinyCbor) : StoreInvariant cbor Sound :=
  ⟨fun _ hempty => .of_empty hempty, fun _ _ h => h.congr rfl fun _ _ => rfl,
    fun _ op h => storeOp_sound h op⟩

theorem Initial.sound {s : System} (h : Initial s) : SystemSound s :=
  ⟨fun partition => .of_empty (h.numKeys partition),
    fun partition image himage hcrc => absurd hcrc (h.nvm partition image himage)⟩

theorem SystemSound.step {s : System} (h : SystemSound s) (op : Op) :
    SystemSound (step cbor s op) := by
  obtain ⟨hconfigs, hnvm⟩ := (sound_invariant cbor).step ⟨h.configs, h.nvm⟩ op
  exact ⟨hconfigs, hnvm⟩

theorem Reachable.sound {s : System} (h : Reachable cbor s) : SystemSound s := by
  obtain ⟨hconfigs, hnvm⟩ := (sound_invariant cbor).reachable h
  exact ⟨hconfigs, hnvm⟩

theorem Reachable.step {s : System} (h : Reachable cbor s) (op : Op) :
    Reachable cbor (step cbor s op) := by
  obtain ⟨s₀, ops, hinit, rfl⟩ := h
  exact ⟨s₀, ops ++ [op], hinit, by rw [List.foldl_append]; rfl⟩

end Steps

end BmCore.Configuration
