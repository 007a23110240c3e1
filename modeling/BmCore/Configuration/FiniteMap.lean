import BmCore.Configuration.SetGet

/-!
# The store is a finite map

For keys of less than 32 bytes without a NUL. A ghost records for every slot which key it was
written for last, along with the images in flash. The entries of a partition are a list with
distinct keys; a successful call changes it as the calls on a finite map do, and no other
partition. -/
namespace BmCore.Configuration
open Library

/-! ## Entries -/

/-- A key as `get_stored_keys` lists it. -/
abbrev Listed := List UInt8 × Nat

def ConfigKey.listed (k : ConfigKey) : Listed := (k.keyBuf.bytes.take k.keyLen, k.keyLen)

structure Entry where
  key : Listed
  valueType : ConfigDataTypes
  value : ConfigValue

def entryAt (p : ConfigPartition) (i : Nat) : Entry :=
  ⟨(p.keys i).listed, (p.keys i).valueType, p.values i⟩

/-- Keys and values side by side. -/
def entries (p : ConfigPartition) : List Entry := (List.range p.numKeys).map (entryAt p)

/-- Keys that are in the domain of the map. -/
def PlainKey (key : List UInt8) (keyLen : Nat) : Prop :=
  keyLen < maxKeyLenBytes ∧ 0 ∉ chars keyLen key ∧ isKeyValid key keyLen = true

def StoreOp.Plain : StoreOp → Prop
  | .set key keyLen _ => PlainKey key keyLen
  | .remove key keyLen => PlainKey key keyLen
  | .clear => True

def Op.Plain : Op → Prop
  | .store _ op => op.Plain
  | .save .. => True
  | .boot .. => True

/-- What a call makes of the entries of its partition. -/
def EntriesAfter (cbor : TinyCbor) (info : ConfigInfo) (op : StoreOp) : Prop :=
  let before := entries info.ramBuffer
  let after := entries (storeOp cbor info op).1.ramBuffer
  let succeeds := (storeOp cbor info op).2 = true
  match op with
  | .set key keyLen call => succeeds →
    ((∀ e ∈ before, e.key ≠ (chars keyLen key, keyLen)) →
      ∃ e old, e.key = (chars keyLen key, keyLen) ∧ Stores cbor old e.value call ∧
        after = before ++ [e]) ∧
    ∀ i e, before[i]? = some e → e.key = (chars keyLen key, keyLen) →
      ∃ e', e'.key = e.key ∧ Stores cbor e.value e'.value call ∧ after = before.set i e'
  | .remove key keyLen =>
    (succeeds ↔ ∃ e ∈ before, e.key = (chars keyLen key, keyLen)) ∧
      after = before.filter fun e => e.key ≠ (chars keyLen key, keyLen)
  | .clear => succeeds ∧ after = []

/-! ## Writers -/

/-- The keys that the slots were written for. -/
abbrev Writers := Nat → Option Listed

/-- The slot that a setter writes to, if it succeeds or not. -/
def writtenSlot (cbor : TinyCbor) (info : ConfigInfo) (key : List UInt8) (keyLen : Nat) :
    SetCall → Option Nat
  | .typed _ => (prepareCborEncoder key keyLen info.ramBuffer).map (·.2.1)
  | .cbor value =>
    if (setConfigCbor cbor info key keyLen value).2 then
      some ((findKeyIdx info.ramBuffer key keyLen).getD info.ramBuffer.numKeys)
    else none

/-- `remove_key` moves the slots, so that what was written moves with them. -/
def writersAfter (cbor : TinyCbor) (info : ConfigInfo) (w : Writers) : StoreOp → Writers
  | .set key keyLen call =>
    match writtenSlot cbor info key keyLen call with
    | none => w
    | some idx => Function.update w idx (some (chars keyLen key, keyLen))
  | .remove key keyLen =>
    match findKeyIdx info.ramBuffer key keyLen with
    | none => w
    | some idx => fun i => if idx ≤ i ∧ i < info.ramBuffer.numKeys - 1 then w (i + 1) else w i
  | .clear => fun _ => none

/-- The system with the writers of its slots, in RAM and in flash. -/
structure Traced where
  system : System
  writers : BmConfigPartition → Writers
  saved : BmConfigPartition → Writers

def traceStep (cbor : TinyCbor) (t : Traced) (op : Op) : Traced where
  system := step cbor t.system op
  writers := match op with
    | .store partition op => Function.update t.writers partition
      (writersAfter cbor (t.system.configs partition) (t.writers partition) op)
    | .save .. => t.writers
    | .boot .. => t.saved
  saved := match op with
    | .save partition true => Function.update t.saved partition (t.writers partition)
    | _ => t.saved

/-! ## Slots and their writers -/

section Slots
variable {cbor : TinyCbor} {info : ConfigInfo} {key : List UInt8} {keyLen : Nat}

theorem prepareCborEncoder_slot {p p' : ConfigPartition} {idx : Nat} {keyExists : Bool}
    (h : prepareCborEncoder key keyLen p = some (p', idx, keyExists)) :
    idx = (findKeyIdx p key keyLen).getD p.numKeys ∧ p'.values = p.values := by
  unfold prepareCborEncoder at h
  split at h
  · simp at h
  split at h
  · simp at h
  cases hfind : findKeyIdx p key keyLen with
  | some i =>
    simp only [hfind, Option.some.injEq, Prod.mk.injEq] at h
    obtain ⟨rfl, rfl, -⟩ := h
    exact ⟨rfl, rfl⟩
  | none =>
    simp only [hfind] at h
    split at h
    · simp only [Option.some.injEq, Prod.mk.injEq] at h
      obtain ⟨rfl, rfl, -⟩ := h
      exact ⟨rfl, rfl⟩
    · simp at h

/-- What `set_config_cbor` leaves of the slots when it fails. -/
theorem setConfigCbor_refused {value : List UInt8}
    (h : (setConfigCbor cbor info key keyLen value).2 = false) :
    (setConfigCbor cbor info key keyLen value).1.ramBuffer.values = info.ramBuffer.values := by
  revert h
  unfold setConfigCbor
  split
  · exact fun _ => rfl
  split
  · exact fun _ => rfl
  split
  · exact fun _ => rfl
  split
  · exact fun _ => rfl
  cases hfind : findKeyIdx info.ramBuffer key keyLen with
  | some i =>
    cases cborTypeToConfig (cbor.type value) with
    | none => exact fun _ => rfl
    | some valueType => simp
  | none =>
    dsimp only
    split_ifs with hvalid hroom
    · exact fun _ => rfl
    · exact fun _ => rfl
    cases cborTypeToConfig (cbor.type value) with
    | none => exact fun _ => rfl
    | some valueType => simp

/-- A setter writes to the slot of its key or to the one behind the others. -/
theorem writtenSlot_eq {call : SetCall} {idx : Nat}
    (h : writtenSlot cbor info key keyLen call = some idx) :
    idx = (findKeyIdx info.ramBuffer key keyLen).getD info.ramBuffer.numKeys := by
  cases call with
  | typed item =>
    obtain ⟨⟨p', i, keyExists⟩, hprepare, rfl⟩ := Option.map_eq_some_iff.mp h
    exact (prepareCborEncoder_slot hprepare).1
  | cbor value =>
    rw [writtenSlot] at h
    split at h
    · exact (Option.some.inj h).symm
    · simp at h

theorem setConfig_written {item : CborItem} {valueType : ConfigDataTypes} :
    ((setConfig cbor info key keyLen item valueType).2 = true →
      (writtenSlot cbor info key keyLen (.typed item)).isSome = true) ∧
    ∀ i, writtenSlot cbor info key keyLen (.typed item) ≠ some i →
      (setConfig cbor info key keyLen item valueType).1.ramBuffer.values i =
        info.ramBuffer.values i := by
  unfold setConfig writtenSlot
  cases hprepare : prepareCborEncoder key keyLen info.ramBuffer with
  | none => exact ⟨fun h => by simp at h, fun _ _ => rfl⟩
  | some prepared =>
    obtain ⟨p, idx, keyExists⟩ := prepared
    have hvalues := (prepareCborEncoder_slot hprepare).2
    refine ⟨fun _ => rfl, fun i hi => ?_⟩
    have hne : i ≠ idx := by
      rintro rfl
      exact hi rfl
    have hwrite : Function.update p.values idx (cbor.encode item (p.values idx)).1 i =
        info.ramBuffer.values i := by rw [Function.update_of_ne hne, hvalues]
    dsimp only
    split_ifs <;> exact hwrite

/-- A successful setter has written to a slot, and no setter writes to another. -/
theorem setCall_written (call : SetCall) :
    ((setCall cbor info key keyLen call).2 = true → writtenSlot cbor info key keyLen call =
      some ((findKeyIdx info.ramBuffer key keyLen).getD info.ramBuffer.numKeys)) ∧
    ∀ i, writtenSlot cbor info key keyLen call ≠ some i →
      (setCall cbor info key keyLen call).1.ramBuffer.values i = info.ramBuffer.values i := by
  have hslot : (writtenSlot cbor info key keyLen call).isSome = true →
      writtenSlot cbor info key keyLen call =
        some ((findKeyIdx info.ramBuffer key keyLen).getD info.ramBuffer.numKeys) := by
    intro h
    obtain ⟨idx, hidx⟩ := Option.isSome_iff_exists.mp h
    rw [hidx, writtenSlot_eq hidx]
  cases call with
  | typed item => cases item <;> exact ⟨fun h => hslot (setConfig_written.1 h), setConfig_written.2⟩
  | cbor value =>
    refine ⟨fun h => if_pos h, fun i hi => ?_⟩
    cases hok : (setConfigCbor cbor info key keyLen value).2 with
    | false => exact congrFun (setConfigCbor_refused hok) i
    | true =>
      have hsets := setConfigCbor_sets cbor info key keyLen value
      rw [writtenSlot, if_pos hok] at hi
      dsimp only [setCall]
      generalize setConfigCbor cbor info key keyLen value = result at hok hsets
      cases hsets with
      | refused => rfl
      | abandoned => simp at hok
      | overrun => simp at hok
      | replaced idx k v keyLen_le found =>
        rw [found] at hi
        have hne : i ≠ idx := fun h => hi (congrArg some h.symm)
        exact Function.update_of_ne hne ..
      | appended k v keyLen_le absent =>
        rw [absent] at hi
        have hne : i ≠ info.ramBuffer.numKeys := fun h => hi (congrArg some h.symm)
        exact Function.update_of_ne hne ..

end Slots

/-! ## Keys as they are listed -/

section Listed
variable {p p' : ConfigPartition} {key : List UInt8} {keyLen idx : Nat} {k k' : ConfigKey}

theorem PlainKey.representable (h : PlainKey key keyLen) : Representable key keyLen :=
  ⟨h.1, fun hmem => h.2.1 (List.dropLast_subset _ hmem)⟩

theorem PlainKey.listed_iff (h : PlainKey key keyLen) :
    k.listed = (chars keyLen key, keyLen) ↔ k.name = nameOf key keyLen :=
  Configuration.listed_iff h.representable

theorem name_of_listed (hlen : k.keyLen ≤ maxKeyLenBytes) (h : k.listed = k'.listed) :
    k.name = k'.name := by
  obtain ⟨hbytes, hlen'⟩ := Prod.mk.inj h
  have hsize := k.keyBuf.length_eq
  have hsize' := k'.keyBuf.length_eq
  rw [ConfigKey.name, ConfigKey.name, nameOf, nameOf, ← cString_chars, ← cString_chars,
    chars_of_le (by omega), chars_of_le (by omega), hbytes, hlen']

theorem getElem?_entries (p : ConfigPartition) (i : Nat) :
    (entries p)[i]? = if i < p.numKeys then some (entryAt p i) else none := by
  rw [entries, List.getElem?_map]
  split
  · rename_i h
    rw [List.getElem?_range h, Option.map_some]
  · rename_i h
    rw [List.getElem?_eq_none (by simpa using h), Option.map_none]

theorem mem_entries {e : Entry} : e ∈ entries p ↔ ∃ i < p.numKeys, e = entryAt p i := by
  rw [entries, List.mem_map]
  constructor
  · rintro ⟨i, hi, rfl⟩
    exact ⟨i, List.mem_range.mp hi, rfl⟩
  · rintro ⟨i, hi, rfl⟩
    exact ⟨i, List.mem_range.mpr hi, rfl⟩

/-- The entry of a plain key is where `find_key_idx` finds it. -/
theorem PlainKey.find_iff (hkey : PlainKey key keyLen) (h : Sound p) :
    findKeyIdx p key keyLen = some idx ↔
      idx < p.numKeys ∧ (entryAt p idx).key = (chars keyLen key, keyLen) := by
  constructor
  · intro hfind
    obtain ⟨hidx, hname, -⟩ := findKeyIdx_eq_some.mp hfind
    exact ⟨hidx, hkey.listed_iff.mpr hname⟩
  · rintro ⟨hidx, hlisted⟩
    exact findKeyIdx_of_name h hidx (hkey.listed_iff.mp hlisted) hkey.1

theorem PlainKey.absent_iff (hkey : PlainKey key keyLen) :
    findKeyIdx p key keyLen = none ↔ ∀ e ∈ entries p, e.key ≠ (chars keyLen key, keyLen) := by
  rw [findKeyIdx_eq_none]
  constructor
  · intro h e he
    obtain ⟨i, hi, rfl⟩ := mem_entries.mp he
    exact fun hlisted => h i hi (hkey.listed_iff.mp hlisted)
  · intro h i hi hname
    exact h _ (mem_entries.mpr ⟨i, hi, rfl⟩) (hkey.listed_iff.mpr hname)

/-- One entry is changed. -/
theorem entries_replace (hnum : p'.numKeys = p.numKeys)
    (hsame : ∀ i, i ≠ idx → entryAt p' i = entryAt p i) :
    entries p' = (entries p).set idx (entryAt p' idx) := by
  refine List.ext_getElem? fun i => ?_
  rw [List.getElem?_set, getElem?_entries, getElem?_entries, hnum]
  rcases eq_or_ne idx i with rfl | hne
  · rw [if_pos rfl, entries, List.length_map, List.length_range]
  · rw [if_neg hne, hsame i hne.symm]

/-- One entry is appended. -/
theorem entries_append (hnum : p'.numKeys = p.numKeys + 1)
    (hsame : ∀ i, i ≠ p.numKeys → entryAt p' i = entryAt p i) :
    entries p' = entries p ++ [entryAt p' p.numKeys] := by
  rw [entries, entries, hnum, List.range_succ, List.map_append, List.map_singleton]
  congr 1
  refine List.map_congr_left fun i hi => hsame i ?_
  have := List.mem_range.mp hi
  omega

/-- The indexes but one. -/
theorem filter_range_ne {n : Nat} (h : idx ≤ n) :
    (List.range (n + 1)).filter (fun i => i ≠ idx) = (List.range n).map (skip idx) := by
  induction n with
  | zero =>
    obtain rfl : idx = 0 := by omega
    rfl
  | succ n ih =>
    rw [List.range_succ, List.filter_append]
    rcases Nat.lt_or_ge n idx with hlt | hge
    · obtain rfl : idx = n + 1 := by omega
      have hall : (List.range (n + 1)).filter (fun i => i ≠ n + 1) = List.range (n + 1) := by
        refine List.filter_eq_self.mpr fun i hi => ?_
        have := List.mem_range.mp hi
        simp
        omega
      have hskip : (List.range (n + 1)).map (skip (n + 1)) = List.range (n + 1) := by
        refine (List.map_congr_left fun i hi => ?_).trans (List.map_id _)
        exact if_pos (List.mem_range.mp hi)
      rw [hall, hskip]
      simp
    · rw [ih hge, List.range_succ, List.map_append, List.map_singleton]
      congr 1
      have hlast : n + 1 ≠ idx := by omega
      simp [hlast, skip, Nat.not_lt.mpr hge]

/-- One entry is taken out. -/
theorem entries_remove (h : Sound p) (hkey : PlainKey key keyLen)
    (hfind : findKeyIdx p key keyLen = some idx) (hnum : p'.numKeys = p.numKeys - 1)
    (hsame : ∀ i < p'.numKeys, entryAt p' i = entryAt p (skip idx i)) :
    entries p' = (entries p).filter fun e => e.key ≠ (chars keyLen key, keyLen) := by
  have hidx := (findKeyIdx_eq_some.mp hfind).1
  have hfilter : (List.range p.numKeys).filter
      ((fun e => decide (Entry.key e ≠ (chars keyLen key, keyLen))) ∘ entryAt p) =
        (List.range p.numKeys).filter fun i => i ≠ idx := by
    refine List.filter_congr fun i hi => ?_
    have hi' := List.mem_range.mp hi
    simp only [Function.comp_apply, decide_eq_decide]
    refine not_congr ⟨fun hlisted => ?_, fun heq => ?_⟩
    · have hfind' := (hkey.find_iff h).mpr ⟨hi', hlisted⟩
      exact Option.some.inj (hfind'.symm.trans hfind)
    · exact heq ▸ ((hkey.find_iff h).mp hfind).2
  have hsucc : p.numKeys = p'.numKeys + 1 := by omega
  rw [entries, entries, List.filter_map, hfilter, hsucc, filter_range_ne (by omega), List.map_map]
  exact List.map_congr_left fun i hi => hsame i (List.mem_range.mp hi)

theorem nodup_getStoredKeys (h : Sound p)
    (hshort : ∀ i < p.numKeys, (p.keys i).keyLen < maxKeyLenBytes) : (getStoredKeys p).Nodup := by
  refine (List.nodup_map_iff_inj_on List.nodup_range).mpr fun i hi j hj heq => ?_
  have hi' := List.mem_range.mp hi
  have hlisted : (p.keys i).listed = (p.keys j).listed := heq
  exact h.distinct i hi' j (List.mem_range.mp hj) (hshort i hi')
    (name_of_listed (h.keyLen_le i hi') hlisted)

end Listed

/-! ## Steps -/

section Steps
variable {cbor : TinyCbor} {info : ConfigInfo} {key : List UInt8} {keyLen : Nat}

/-- A successful setter appends the entry of its key or changes it. -/
theorem entriesAfter_set (h : Sound info.ramBuffer) (hkey : PlainKey key keyLen) (call : SetCall) :
    EntriesAfter cbor info (.set key keyLen call) := by
  have hset := setCall_sets cbor info key keyLen call
  dsimp only [EntriesAfter, storeOp]
  generalize setCall cbor info key keyLen call = result at hset
  intro htrue
  cases hset with
  | refused => simp at htrue
  | abandoned => simp at htrue
  | overrun => simp at htrue
  | replaced idx k v keyLen_le found keyLen_eq keyBuf stores =>
    obtain ⟨hidx, hlisted⟩ := (hkey.find_iff h).mp found
    have hk : k.listed = (chars keyLen key, keyLen) :=
      hkey.listed_iff.mpr ((name_rewritten h found keyLen_eq keyBuf).trans
        (hkey.listed_iff.mp hlisted))
    have hafter : entryAt (info.ramBuffer.writeEntry idx k v) idx = ⟨k.listed, k.valueType, v⟩ := by
      simp [entryAt]
    refine ⟨fun habsent => ?_, fun i e hi he => ?_⟩
    · rw [hkey.absent_iff.mpr habsent] at found
      simp at found
    · rw [getElem?_entries] at hi
      split at hi
      · rename_i hlt
        obtain rfl := Option.some.inj hi
        have hfind := (hkey.find_iff h).mpr ⟨hlt, he⟩
        obtain rfl : i = idx := Option.some.inj (hfind.symm.trans found)
        refine ⟨_, ?_, ?_, entries_replace rfl fun j hj => ?_⟩
        · rw [hafter, he, hk]
        · rw [hafter]
          exact stores
        · simp [entryAt, Function.update_of_ne hj]
      · simp at hi
  | appended k v keyLen_le absent valid room keyLen_eq keyBuf stores =>
    have hk : k.listed = (chars keyLen key, keyLen) :=
      hkey.listed_iff.mpr (name_stored keyBuf keyLen_eq (.inl hkey.1))
    refine ⟨fun _ => ?_, fun i e hi he => ?_⟩
    · refine ⟨⟨k.listed, k.valueType, v⟩, _, hk, stores, ?_⟩
      rw [entries_append rfl fun j hj => by simp [entryAt, Function.update_of_ne hj]]
      simp [entryAt]
    · exact absurd he (hkey.absent_iff.mp absent e (List.mem_of_getElem? hi))

theorem entriesAfter_remove (h : Sound info.ramBuffer) (hkey : PlainKey key keyLen) :
    EntriesAfter cbor info (.remove key keyLen) := by
  dsimp only [EntriesAfter, storeOp]
  rcases removeKey_cases info key keyLen with
    ⟨hfind, hremove⟩ | ⟨idx, p, hfind, hremove, hnum, hkeys, hvalues⟩
  · have habsent := hkey.absent_iff.mp hfind
    rw [hremove]
    refine ⟨⟨fun hfalse => by simp at hfalse, ?_⟩, ?_⟩
    · rintro ⟨e, he, hlisted⟩
      exact absurd hlisted (habsent e he)
    · exact (List.filter_eq_self.mpr fun e he => by simpa using habsent e he).symm
  · obtain ⟨hidx, hlisted⟩ := (hkey.find_iff h).mp hfind
    rw [hremove]
    refine ⟨⟨fun _ => ⟨_, mem_entries.mpr ⟨idx, hidx, rfl⟩, hlisted⟩, fun _ => rfl⟩, ?_⟩
    refine entries_remove h hkey hfind hnum fun i hi => ?_
    rw [entryAt, entryAt, hkeys i hi, hvalues i hi]

theorem entriesAfter_of_plain (h : Sound info.ramBuffer) {op : StoreOp} (hop : op.Plain) :
    EntriesAfter cbor info op := by
  cases op with
  | set key keyLen call => exact entriesAfter_set h hop call
  | remove key keyLen => exact entriesAfter_remove h hop
  | clear => exact ⟨rfl, rfl⟩

/-- The keys of a partition are short, and its slots were written for them. -/
structure Owned (p : ConfigPartition) (w : Writers) : Prop where
  sound : Sound p
  short : ∀ i < p.numKeys, (p.keys i).keyLen < maxKeyLenBytes
  writer : ∀ i < p.numKeys, w i = some (p.keys i).listed

theorem Owned.of_empty {p : ConfigPartition} (h : p.numKeys = 0) (w : Writers) : Owned p w := by
  refine ⟨.of_empty h, fun i hi => ?_, fun i hi => ?_⟩ <;> omega

theorem Owned.congr {p p' : ConfigPartition} {w : Writers} (h : Owned p w) (hsound : Sound p')
    (hnum : p'.numKeys = p.numKeys)
    (hlisted : ∀ i < p.numKeys, (p'.keys i).listed = (p.keys i).listed) : Owned p' w := by
  refine ⟨hsound, fun i hi => ?_, fun i hi => ?_⟩
  · have hlen : (p'.keys i).keyLen = (p.keys i).keyLen := congrArg Prod.snd (hlisted i (hnum ▸ hi))
    rw [hlen]
    exact h.short i (hnum ▸ hi)
  · rw [hlisted i (hnum ▸ hi)]
    exact h.writer i (hnum ▸ hi)

/-- The slot of a key may be written for it. -/
theorem Owned.writersAfter_set {w : Writers} (h : Owned info.ramBuffer w)
    (hkey : PlainKey key keyLen) (call : SetCall) :
    Owned info.ramBuffer (writersAfter cbor info w (.set key keyLen call)) := by
  refine ⟨h.sound, h.short, fun i hi => ?_⟩
  dsimp only [writersAfter]
  cases hslot : writtenSlot cbor info key keyLen call with
  | none => exact h.writer i hi
  | some idx =>
    dsimp only
    rcases eq_or_ne i idx with rfl | hne
    · have hidx := writtenSlot_eq hslot
      rw [Function.update_self]
      cases hfind : findKeyIdx info.ramBuffer key keyLen with
      | none =>
        rw [hfind, Option.getD_none] at hidx
        omega
      | some j =>
        rw [hfind, Option.getD_some] at hidx
        exact congrArg some (hidx ▸ ((hkey.find_iff h.sound).mp hfind).2.symm)
    · rw [Function.update_of_ne hne]
      exact h.writer i hi

theorem Owned.set {w : Writers} (h : Owned info.ramBuffer w) (hkey : PlainKey key keyLen)
    (call : SetCall) : Owned (setCall cbor info key keyLen call).1.ramBuffer
      (writersAfter cbor info w (.set key keyLen call)) := by
  have hset := setCall_sets cbor info key keyLen call
  have hsound' := hset.sound h.sound
  have hwriters : Owned info.ramBuffer (writersAfter cbor info w (.set key keyLen call)) :=
    h.writersAfter_set hkey call
  have hwritten : (setCall cbor info key keyLen call).2 = true →
      writtenSlot cbor info key keyLen call =
        some ((findKeyIdx info.ramBuffer key keyLen).getD info.ramBuffer.numKeys) :=
    (setCall_written call).1
  have hrewritten : ∀ {idx : Nat} {k : ConfigKey},
      findKeyIdx info.ramBuffer key keyLen = some idx →
      k.name = (info.ramBuffer.keys idx).name → ∀ i,
        (Function.update info.ramBuffer.keys idx k i).listed = (info.ramBuffer.keys i).listed := by
    intro idx k hfind hname i
    rcases eq_or_ne i idx with rfl | hne
    · have hlisted := ((hkey.find_iff h.sound).mp hfind).2
      rw [Function.update_self]
      exact (hkey.listed_iff.mpr (hname.trans (hkey.listed_iff.mp hlisted))).trans hlisted.symm
    · rw [Function.update_of_ne hne]
  generalize setCall cbor info key keyLen call = result at hset hsound' hwritten
  cases hset with
  | refused => exact hwriters
  | abandoned k v absent =>
    refine hwriters.congr hsound' rfl fun i hi => ?_
    exact congrArg ConfigKey.listed (Function.update_of_ne (by omega) ..)
  | overrun item idx typed keyLen_le room found fails =>
    refine hwriters.congr hsound' rfl fun i _ => hrewritten found ?_ i
    exact name_rewritten h.sound found (congrArg Prod.fst (findKeyIdx_eq_some.mp found).2.1)
      (.inl rfl)
  | replaced idx k v keyLen_le found keyLen_eq keyBuf stores =>
    refine hwriters.congr hsound' rfl fun i _ => hrewritten found ?_ i
    exact name_rewritten h.sound found keyLen_eq keyBuf
  | appended k v keyLen_le absent valid room keyLen_eq keyBuf stores =>
    have hk : k.listed = (chars keyLen key, keyLen) :=
      hkey.listed_iff.mpr (name_stored keyBuf keyLen_eq (.inl hkey.1))
    have hslot := hwritten rfl
    rw [absent, Option.getD_none] at hslot
    refine ⟨hsound', fun i hi => ?_, fun i hi => ?_⟩
    all_goals
      dsimp only at hi
      rw [writeEntry_keys]
      rcases eq_or_ne i info.ramBuffer.numKeys with rfl | hne
    · rw [Function.update_self, keyLen_eq]
      exact hkey.1
    · rw [Function.update_of_ne hne]
      exact h.short i (by omega)
    · dsimp only [writersAfter]
      rw [Function.update_self, hk, hslot]
      exact Function.update_self ..
    · rw [Function.update_of_ne hne]
      exact hwriters.writer i (by omega)

theorem Owned.remove {w : Writers} (h : Owned info.ramBuffer w) :
    Owned (removeKey info key keyLen).1.ramBuffer
      (writersAfter cbor info w (.remove key keyLen)) := by
  rcases removeKey_cases info key keyLen with
    ⟨hfind, hremove⟩ | ⟨idx, p, hfind, hremove, hnum, hkeys, hvalues⟩
  · rw [hremove, writersAfter, hfind]
    exact h
  · have hskip : ∀ i < p.numKeys, skip idx i < info.ramBuffer.numKeys := by
      intro i hi
      unfold skip
      split <;> omega
    rw [hremove, writersAfter, hfind]
    refine ⟨h.sound.remove hnum hkeys, fun i hi => ?_, fun i hi => ?_⟩
    · rw [hkeys i hi]
      exact h.short _ (hskip i hi)
    · have hmoved : (if idx ≤ i ∧ i < info.ramBuffer.numKeys - 1 then w (i + 1) else w i) =
          w (skip idx i) := by
        dsimp only at hi
        unfold skip
        rcases Nat.lt_or_ge i idx with hlt | hge
        · rw [if_neg (by omega), if_pos hlt]
        · rw [if_pos ⟨hge, by omega⟩, if_neg (by omega)]
      dsimp only
      rw [hmoved, hkeys i hi]
      exact h.writer _ (hskip i hi)

theorem Owned.storeOp {w : Writers} (h : Owned info.ramBuffer w) {op : StoreOp} (hop : op.Plain) :
    Owned (storeOp cbor info op).1.ramBuffer (writersAfter cbor info w op) := by
  cases op with
  | set key keyLen call => exact h.set hop call
  | remove key keyLen => exact h.remove
  | clear => exact .of_empty rfl _

/-- Every partition is owned by its keys, and so is every valid image of one. -/
structure SystemOwned (t : Traced) : Prop where
  configs : ∀ partition, Owned (t.system.configs partition).ramBuffer (t.writers partition)
  nvm : ∀ partition image, t.system.nvm partition = some image →
    image.crc32 = crc32Ieee image.body → Owned image (t.saved partition)

theorem SystemOwned.traceStep {t : Traced} (h : SystemOwned t) {op : Op} (hop : op.Plain) :
    SystemOwned (traceStep cbor t op) := by
  have hsaved : ∀ partition written,
      Owned (saveConfig (t.system.configs partition) written).1.ramBuffer
        (t.writers partition) := by
    intro partition written
    have hsound := (h.configs partition).sound
    unfold saveConfig
    split <;> exact (h.configs partition).congr (hsound.congr rfl fun _ _ => rfl) rfl fun _ _ => rfl
  cases op with
  | store partition op =>
    refine ⟨fun q => ?_, h.nvm⟩
    rcases eq_or_ne q partition with rfl | hne
    · simp only [Configuration.traceStep, step, Function.update_self]
      exact (h.configs q).storeOp hop
    · simp only [Configuration.traceStep, step, Function.update_of_ne hne]
      exact h.configs q
  | save partition written =>
    refine ⟨fun q => ?_, fun q image himage hcrc => ?_⟩
    · rcases eq_or_ne q partition with rfl | hne
      · simp only [Configuration.traceStep, step, Function.update_self]
        exact hsaved q written
      · simp only [Configuration.traceStep, step, Function.update_of_ne hne]
        exact h.configs q
    · cases written with
      | false => exact h.nvm q image himage hcrc
      | true =>
        simp only [Configuration.traceStep, step] at himage ⊢
        rcases eq_or_ne q partition with rfl | hne
        · simp only [saveConfig, Bool.not_true, Bool.false_eq_true, if_false, if_true,
            Function.update_self] at himage ⊢
          exact Option.some.inj himage ▸ hsaved q true
        · simp only [saveConfig, Bool.not_true, Bool.false_eq_true, if_false, if_true,
            Function.update_of_ne hne] at himage ⊢
          exact h.nvm q image himage hcrc
  | boot ram readable =>
    refine ⟨fun q => ?_, h.nvm⟩
    simp only [Configuration.traceStep, step]
    rcases configInit_cases ⟨ram q, false⟩ (if readable q then t.system.nvm q else none) with
      hempty | ⟨image, himage, hcrc, hloaded⟩
    · exact .of_empty hempty _
    · rw [hloaded]
      split at himage
      · exact h.nvm q image himage hcrc
      · simp at himage

end Steps

/-! ## Runs -/

theorem SystemOwned.of_initial {t : Traced} (h : Initial t.system) : SystemOwned t :=
  ⟨fun partition => .of_empty (h.numKeys partition) _,
    fun partition image himage hcrc => absurd hcrc (h.nvm partition image himage)⟩

theorem SystemOwned.run {cbor : TinyCbor} {t : Traced} (h : SystemOwned t) {ops : List Op}
    (hops : ∀ op ∈ ops, op.Plain) : SystemOwned (ops.foldl (Configuration.traceStep cbor) t) := by
  induction ops generalizing t with
  | nil => exact h
  | cons op ops ih =>
    exact ih (h.traceStep (hops op List.mem_cons_self)) fun op' hop' =>
      hops op' (List.mem_cons_of_mem op hop')

/-- In every state that plain calls lead to, the entries are a map: there are at most `MAX_NUM_KV`
of them, their keys are distinct, and every slot was written last for the key that it belongs to.
The next call changes the entries of its partition as a call on a map does, and no other
partition. -/
theorem store_finite_map (cbor : TinyCbor) (t₀ : Traced) (hinit : Initial t₀.system)
    (ops : List Op) (hops : ∀ op ∈ ops, op.Plain) :
    let t := ops.foldl (traceStep cbor) t₀
    t.system = ops.foldl (step cbor) t₀.system ∧
    ∀ partition,
      let info := t.system.configs partition
      info.ramBuffer.numKeys ≤ maxNumKv ∧
      (getStoredKeys info.ramBuffer).Nodup ∧
      (∀ i < info.ramBuffer.numKeys, t.writers partition i = some (info.ramBuffer.keys i).listed) ∧
      (∀ key keyLen call i, writtenSlot cbor info key keyLen call ≠ some i →
        (setCall cbor info key keyLen call).1.ramBuffer.values i = info.ramBuffer.values i) ∧
      ∀ op : StoreOp, op.Plain → EntriesAfter cbor info op ∧
        ∀ q, q ≠ partition →
          (step cbor t.system (.store partition op)).configs q = t.system.configs q := by
  intro t
  have howned : SystemOwned t := (SystemOwned.of_initial hinit).run hops
  refine ⟨foldl_observer (fun _ _ => rfl) t₀ ops, fun partition => ?_⟩
  obtain ⟨hsound, hshort, hwriter⟩ := howned.configs partition
  refine ⟨hsound.numKeys_le, nodup_getStoredKeys hsound hshort, hwriter,
    fun key keyLen call => (setCall_written call).2, fun op hop => ?_⟩
  exact ⟨entriesAfter_of_plain hsound hop, fun q hne => Function.update_of_ne hne ..⟩

/-- Two keys are set and one of them is removed. -/
def threeCalls : List Op :=
  [.store .user (.set [0x61] 1 (.typed (.uint 5))), .store .user (.set [0x62] 1 (.cbor [0x07])),
    .store .user (.remove [0x61] 1)]

theorem store_finite_map_threeCalls :
    let t := threeCalls.foldl (traceStep tinyCbor) ⟨freshSystem, fun _ _ => none, fun _ _ => none⟩
    (getStoredKeys (t.system.configs .user).ramBuffer).Nodup ∧
      t.writers .user 0 = some ([0x62], 1) := by
  intro t
  have hops : ∀ op ∈ threeCalls, op.Plain := by
    simp only [threeCalls, List.forall_mem_cons, List.not_mem_nil, false_imp_iff, implies_true,
      and_true]
    exact ⟨⟨by decide, by decide, by decide⟩, ⟨by decide, by decide, by decide⟩,
      ⟨by decide, by decide, by decide⟩⟩
  obtain ⟨-, hmap⟩ := store_finite_map tinyCbor ⟨freshSystem, fun _ _ => none, fun _ _ => none⟩
    freshSystem_initial threeCalls hops
  obtain ⟨-, hnodup, hwriter, -⟩ := hmap .user
  exact ⟨hnodup, (hwriter 0 (by decide +kernel)).trans (by decide +kernel)⟩

end BmCore.Configuration
