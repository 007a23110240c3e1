import BmCore.Configuration.Store
import BmCore.Library.StringReads
import Mathlib.Data.List.Find

/-!
# Keys and values in a received message

The functions of the store on a key and a value that lie in a message, read by read. What they do is
what the store does with the bytes that a reader finds there. TinyCBOR is given the bytes of a
value, and may read all of them.

A string is read for at most `addressSpace` bytes.
-/
namespace BmCore.Configuration
open Library

/-- Pointers have 32 bits. -/
def addressSpace : Nat := 2 ^ 32

namespace Traced
open Access

/-- `find_key_idx`, from a list of indices on. -/
def findKeyIdxIn (p : ConfigPartition) (key len : Nat) : List Nat → Access UInt8 (Option Nat)
  | [] => pure none
  | i :: is =>
    if (p.keys i).keyLen == len then do
      let found ← strncmpEqAt key (p.keys i).keyBuf.bytes len
      if found then pure (some i) else findKeyIdxIn p key len is
    else findKeyIdxIn p key len is

def findKeyIdx (p : ConfigPartition) (key len : Nat) : Access UInt8 (Option Nat) :=
  findKeyIdxIn p key len (List.range p.numKeys)

/-- `is_key_valid` -/
def isKeyValid (key keyLen : Nat) : Access UInt8 Bool := allAt isKeyChar key keyLen

/-- `get_config_cbor` -/
def getConfigCbor (cbor : TinyCbor) (p : ConfigPartition) (key keyLen valueLen : Nat) :
    Access UInt8 (Option (List UInt8)) :=
  if keyLen > maxKeyLenBytes then pure none
  else do
    match ← findKeyIdx p key keyLen with
    | none => pure none
    | some keyIdx =>
      if !cbor.parserInit (p.values keyIdx).bytes then pure none
      else if cbor.type (p.values keyIdx).bytes = .invalid then pure none
      else do
        match ← findKeyIdx p key keyLen with
        | none => pure none
        | some keyIdx =>
          if valueLen < maxConfigBufferSizeBytes then pure none
          else pure (some (p.values keyIdx).bytes)

/-- The slot of `set_config_cbor`: that of the key, or a new one with the key in it. -/
def slotForKey (p : ConfigPartition) (key keyLen : Nat) :
    Access UInt8 (Option (ConfigPartition × Nat)) := do
  match ← findKeyIdx p key keyLen with
  | some keyIdx => pure (some (p, keyIdx))
  | none => do
    let valid ← isKeyValid key keyLen
    if !valid then pure none
    else if p.numKeys ≥ maxNumKv then pure none
    else do
      let chars ← cStringAt key addressSpace
      pure (some (p.writeKeyBuf p.numKeys chars, p.numKeys))

/-- `set_config_cbor` -/
def setConfigCbor (cbor : TinyCbor) (info : ConfigInfo) (key keyLen value valueLen : Nat) :
    Access UInt8 (ConfigInfo × Bool) :=
  if keyLen > maxKeyLenBytes then pure (info, false)
  else if valueLen > maxConfigBufferSizeBytes ∨ valueLen = 0 then pure (info, false)
  else do
    let bytes ← readRange value valueLen
    if !cbor.parserInit bytes then pure (info, false)
    else if cbor.type bytes = .invalid then pure (info, false)
    else do
      match ← slotForKey info.ramBuffer key keyLen with
      | none => pure (info, false)
      | some (p, keyIdx) =>
        match cborTypeToConfig (cbor.type bytes) with
        | none => pure ({ info with ramBuffer := p }, false)
        | some valueType =>
          let p := p.writeKey keyIdx valueType keyLen
          let p := p.writeValue keyIdx ((p.values keyIdx).put bytes)
          let p := if keyIdx = p.numKeys then { p with numKeys := p.numKeys + 1 } else p
          pure (⟨p, true⟩, true)

/-- `remove_key` -/
def removeKey (info : ConfigInfo) (key keyLen : Nat) : Access UInt8 (ConfigInfo × Bool) := do
  match ← findKeyIdx info.ramBuffer key keyLen with
  | none => pure (info, false)
  | some keyIdx =>
    let p := info.ramBuffer
    let p := if p.numKeys - 1 > keyIdx then
        { p with
          keys := fun i => if keyIdx ≤ i ∧ i < p.numKeys - 1 then p.keys (i + 1) else p.keys i
          values := fun i =>
            if keyIdx ≤ i ∧ i < p.numKeys - 1 then p.values (i + 1) else p.values i }
      else p
    pure (⟨{ p with numKeys := p.numKeys - 1 }, true⟩, true)

end Traced

/-- The characters at a pointer into a message. -/
def charsAt (beyond : Nat → UInt8) (buf : List UInt8) (key : Nat) : List UInt8 :=
  window beyond buf key addressSpace

section Run
variable (beyond : Nat → UInt8) (buf : List UInt8) (key : Nat) {keyLen : Nat}

theorem window_take {m n : Nat} (h : m ≤ n) :
    (window beyond buf key n).take m = window beyond buf key m := by
  rw [window, window, ← List.map_take, List.take_range, Nat.min_eq_left h]

theorem chars_charsAt (h : keyLen ≤ addressSpace) :
    chars keyLen (charsAt beyond buf key) = window beyond buf key keyLen := by
  rw [chars, List.take_append_of_le_length (by rwa [charsAt, window_length]), charsAt,
    window_take beyond buf key h]

theorem keyLen_le_addressSpace (h : ¬ keyLen > maxKeyLenBytes) : keyLen ≤ addressSpace := by
  simp only [maxKeyLenBytes, addressSpace] at *
  omega

theorem writeKeyBuf_cString (p : ConfigPartition) (idx : Nat) (chars : List UInt8) :
    p.writeKeyBuf idx (cString chars) = p.writeKeyBuf idx chars := by
  simp only [ConfigPartition.writeKeyBuf, snprintf, cString_eq_self (zero_notMem_cString chars)]

theorem run_findKeyIdx (p : ConfigPartition) (h : keyLen ≤ addressSpace) :
    (Traced.findKeyIdx p key keyLen).run beyond buf =
      (findKeyIdx p (charsAt beyond buf key) keyLen, buf) := by
  unfold Traced.findKeyIdx findKeyIdx
  induction List.range p.numKeys with
  | nil => rfl
  | cons i is ih =>
    have hcompare : (Access.strncmpEqAt key (p.keys i).keyBuf.bytes keyLen).run beyond buf = _ :=
      Access.run_strncmpEqAt key (p.keys i).keyBuf.bytes h
    rw [Traced.findKeyIdxIn, List.find?_cons, ConfigKey.matches, charsAt]
    cases hlen : (p.keys i).keyLen == keyLen with
    | false => simpa [charsAt] using ih
    | true =>
      rw [if_pos rfl, Access.run_bind, hcompare, Bool.true_and]
      cases strncmpEq (window beyond buf key addressSpace) (p.keys i).keyBuf.bytes keyLen with
      | true => rfl
      | false => exact ih

theorem run_isKeyValid (h : keyLen ≤ addressSpace) :
    (Traced.isKeyValid key keyLen).run beyond buf =
      (isKeyValid (charsAt beyond buf key) keyLen, buf) := by
  rw [Traced.isKeyValid, Access.run_allAt, isKeyValid, chars_charsAt beyond buf key h]

theorem run_getConfigCbor (cbor : TinyCbor) (p : ConfigPartition) (valueLen : Nat) :
    (Traced.getConfigCbor cbor p key keyLen valueLen).run beyond buf =
      (getConfigCbor cbor p (charsAt beyond buf key) keyLen valueLen, buf) := by
  unfold Traced.getConfigCbor getConfigCbor prepareCborParser
  by_cases hlen : keyLen > maxKeyLenBytes
  · simp [hlen]
  have hfind := run_findKeyIdx beyond buf key p (keyLen_le_addressSpace hlen)
  rw [if_neg hlen, if_neg hlen, Access.run_bind, hfind]
  cases hidx : findKeyIdx p (charsAt beyond buf key) keyLen with
  | none => rfl
  | some keyIdx =>
    cases hinit : cbor.parserInit (p.values keyIdx).bytes with
    | false => simp [hinit]
    | true =>
      by_cases htype : cbor.type (p.values keyIdx).bytes = .invalid
      · simp [hinit, htype]
      · by_cases hsize : valueLen < maxConfigBufferSizeBytes
        · simp [hinit, htype, hfind, hidx, hsize]
        · simp [hinit, htype, hfind, hidx, hsize]

theorem run_slotForKey (p : ConfigPartition) (h : keyLen ≤ addressSpace) :
    (Traced.slotForKey p key keyLen).run beyond buf =
      (match findKeyIdx p (charsAt beyond buf key) keyLen with
        | some keyIdx => some (p, keyIdx)
        | none =>
          if !isKeyValid (charsAt beyond buf key) keyLen then none
          else if p.numKeys ≥ maxNumKv then none
          else some (p.writeKeyBuf p.numKeys (charsAt beyond buf key), p.numKeys), buf) := by
  rw [Traced.slotForKey, Access.run_bind, run_findKeyIdx beyond buf key p h]
  cases findKeyIdx p (charsAt beyond buf key) keyLen with
  | some keyIdx => rfl
  | none =>
    rw [Access.run_bind, run_isKeyValid beyond buf key h]
    cases hvalid : isKeyValid (charsAt beyond buf key) keyLen with
    | false => simp
    | true =>
      by_cases hroom : p.numKeys ≥ maxNumKv
      · simp [hroom]
      · simp [hroom, Access.run_cStringAt, writeKeyBuf_cString, charsAt]

theorem run_setConfigCbor (cbor : TinyCbor) (info : ConfigInfo) (value valueLen : Nat) :
    (Traced.setConfigCbor cbor info key keyLen value valueLen).run beyond buf =
      (setConfigCbor cbor info (charsAt beyond buf key) keyLen
        (window beyond buf value valueLen), buf) := by
  unfold Traced.setConfigCbor setConfigCbor
  by_cases hlen : keyLen > maxKeyLenBytes
  · simp [hlen]
  have hslot := run_slotForKey beyond buf key info.ramBuffer (keyLen_le_addressSpace hlen)
  have hread : (Access.readRange value valueLen).run beyond buf =
      (window beyond buf value valueLen, buf) := Access.run_readRange value valueLen buf
  rw [if_neg hlen, if_neg hlen, window_length]
  generalize window beyond buf value valueLen = bytes at hread
  by_cases hsize : valueLen > maxConfigBufferSizeBytes ∨ valueLen = 0
  · rw [if_pos hsize, if_pos hsize, Access.run_pure]
  rw [if_neg hsize, if_neg hsize, Access.run_bind, hread]
  cases hinit : cbor.parserInit bytes with
  | false => simp
  | true =>
    by_cases htype : cbor.type bytes = .invalid
    · simp [htype]
    simp only [Bool.not_true, Bool.false_eq_true, if_false, htype, Access.run_bind, hslot]
    cases findKeyIdx info.ramBuffer (charsAt beyond buf key) keyLen with
    | some keyIdx => cases cborTypeToConfig (cbor.type bytes) <;> rfl
    | none =>
      cases isKeyValid (charsAt beyond buf key) keyLen with
      | false => rfl
      | true =>
        by_cases hroom : info.ramBuffer.numKeys ≥ maxNumKv
        · simp [hroom]
        · simp only [Bool.not_true, Bool.false_eq_true, if_false, hroom]
          cases cborTypeToConfig (cbor.type bytes) <;> rfl

theorem run_removeKey (info : ConfigInfo) (h : keyLen ≤ addressSpace) :
    (Traced.removeKey info key keyLen).run beyond buf =
      (removeKey info (charsAt beyond buf key) keyLen, buf) := by
  rw [Traced.removeKey, Access.run_bind, run_findKeyIdx beyond buf key info.ramBuffer h, removeKey]
  cases findKeyIdx info.ramBuffer (charsAt beyond buf key) keyLen <;> rfl

end Run

/-! ## What is needed of a message -/

/-- The characters of a key that are there tell it from all stored keys of its length, or end it. -/
def KeyDecided (p : ConfigPartition) (chars : List UInt8) (keyLen : Nat) : Prop :=
  ∀ i < p.numKeys, (p.keys i).keyLen = keyLen →
    0 ∈ chars ∨ strncmpEq chars (p.keys i).keyBuf.bytes chars.length = false

/-- A new key is to be written: it goes up to its NUL, whatever its length. -/
def KeyAppended (p : ConfigPartition) (key : List UInt8) (keyLen : Nat) : Prop :=
  findKeyIdx p key keyLen = none ∧ isKeyValid key keyLen = true ∧ p.numKeys < maxNumKv

section Append
variable {p : ConfigPartition} {chars : List UInt8} {keyLen : Nat}

/-- What follows a key that is there, or decided upon, plays no part. -/
theorem findKeyIdx_append (h : keyLen ≤ chars.length ∨ KeyDecided p chars keyLen)
    (rest : List UInt8) : findKeyIdx p (chars ++ rest) keyLen = findKeyIdx p chars keyLen := by
  refine List.find?_congr fun i hi => ?_
  unfold ConfigKey.matches
  cases hlen : (p.keys i).keyLen == keyLen with
  | false => rfl
  | true =>
    rw [Bool.true_and, Bool.true_and]
    refine strncmpEq_append ?_ rest
    exact h.imp_right fun hdecided => hdecided i (List.mem_range.mp hi) (by simpa using hlen)

theorem getConfigCbor_append {cbor : TinyCbor} {valueLen : Nat}
    (h : keyLen ≤ chars.length ∨ KeyDecided p chars keyLen) (rest : List UInt8) :
    getConfigCbor cbor p (chars ++ rest) keyLen valueLen =
      getConfigCbor cbor p chars keyLen valueLen := by
  simp only [getConfigCbor, prepareCborParser, findKeyIdx_append h rest]

theorem keyAppended_append (h : keyLen ≤ chars.length) (rest : List UInt8) :
    KeyAppended p (chars ++ rest) keyLen ↔ KeyAppended p chars keyLen := by
  have hvalid : isKeyValid (chars ++ rest) keyLen = isKeyValid chars keyLen := by
    rw [isKeyValid, isKeyValid, Library.chars, Library.chars, List.append_assoc,
      List.take_append_of_le_length h, List.take_append_of_le_length h]
  rw [KeyAppended, KeyAppended, findKeyIdx_append (.inl h), hvalid]

end Append

section Within
variable {beyond : Nat → UInt8} {buf : List UInt8} {key keyLen : Nat}

/-- A window on everything that is there and more begins with it. -/
theorem window_prefix (beyond : Nat → UInt8) (buf : List UInt8) {off n : Nat}
    (h : buf.length ≤ off + n) : ∃ rest, window beyond buf off n = buf.drop off ++ rest := by
  refine ⟨(window beyond buf off n).drop (buf.drop off).length, ?_⟩
  have htake : (window beyond buf off n).take (buf.drop off).length = buf.drop off := by
    rw [window_take _ _ _ (by rw [List.length_drop]; omega)]
    by_cases hoff : off ≤ buf.length
    · rw [window_eq_slice _ _ (by rw [List.length_drop]; omega), List.take_length]
    · rw [List.drop_eq_nil_of_le (by omega)]
      rfl
  conv_lhs => rw [← List.take_append_drop (buf.drop off).length (window beyond buf off n), htake]

theorem within_findKeyIdx_iff {p : ConfigPartition} :
    (Traced.findKeyIdx p key keyLen).Within beyond buf ↔
      keyLen = 0 ∨ key + keyLen ≤ buf.length ∨ KeyDecided p (buf.drop key) keyLen := by
  have hmem : KeyDecided p (buf.drop key) keyLen ↔ ∀ i ∈ List.range p.numKeys,
      (p.keys i).keyLen = keyLen → 0 ∈ buf.drop key ∨
        strncmpEq (buf.drop key) (p.keys i).keyBuf.bytes (buf.drop key).length = false := by
    simp only [KeyDecided, List.mem_range]
  rw [hmem, Traced.findKeyIdx]
  induction List.range p.numKeys with
  | nil => exact iff_of_true (Access.within_pure none) (.inr (.inr (by simp)))
  | cons i is ih =>
    rw [Traced.findKeyIdxIn]
    by_cases hlen : (p.keys i).keyLen = keyLen
    · have hcompare : (Access.strncmpEqAt key (p.keys i).keyBuf.bytes keyLen).run beyond buf = _ :=
        Access.run_strncmpEqAt key (p.keys i).keyBuf.bytes (le_refl keyLen)
      rw [if_pos (by simpa using hlen), Access.within_bind, Access.within_strncmpEqAt_iff, hcompare]
      by_cases hroom : keyLen = 0 ∨ key + keyLen ≤ buf.length
      · have hrest : (Traced.findKeyIdxIn p key keyLen is).Within beyond buf :=
          ih.mpr (hroom.imp_right .inl)
        refine iff_of_true ⟨hroom.imp_right .inl, ?_⟩ (hroom.imp_right .inl)
        split
        · exact Access.within_pure _
        · exact hrest
      · obtain ⟨hpos, hcut⟩ := not_or.mp hroom
        simp only [hpos, hcut, false_or] at ih ⊢
        rw [List.forall_mem_cons]
        constructor
        · rintro ⟨hdecided, hnext⟩
          refine ⟨fun _ => hdecided, ?_⟩
          by_cases hnul : 0 ∈ buf.drop key
          · exact fun _ _ _ => .inl hnul
          · -- without a NUL the keys differ, and the next one is compared
            have hdiff := hdecided.resolve_left hnul
            obtain ⟨rest, hwindow⟩ := window_prefix beyond buf
              (by omega : buf.length ≤ key + keyLen)
            have hfalse := strncmpEq_append_false hdiff
              (by rw [List.length_drop]; omega : (buf.drop key).length ≤ keyLen) rest
            rw [hwindow, hfalse] at hnext
            exact ih.mp hnext
        · rintro ⟨hdecided, hrest⟩
          refine ⟨hdecided hlen, ?_⟩
          split
          · exact Access.within_pure _
          · exact ih.mpr hrest
    · rw [if_neg (by simpa using hlen), List.forall_mem_cons]
      refine ih.trans ?_
      simp [hlen]

/-- A key that is there as a whole is decided upon. -/
theorem within_findKeyIdx {p : ConfigPartition} (h : key + keyLen ≤ buf.length) :
    (Traced.findKeyIdx p key keyLen).Within beyond buf := within_findKeyIdx_iff.mpr (.inr (.inl h))

theorem within_getConfigCbor_iff {cbor : TinyCbor} {p : ConfigPartition} {valueLen : Nat} :
    (Traced.getConfigCbor cbor p key keyLen valueLen).Within beyond buf ↔
      keyLen > maxKeyLenBytes ∨ (Traced.findKeyIdx p key keyLen).Within beyond buf := by
  unfold Traced.getConfigCbor
  by_cases hlen : keyLen > maxKeyLenBytes
  · simp [hlen, Access.within_pure]
  have hfind := run_findKeyIdx beyond buf key p (keyLen_le_addressSpace hlen)
  rw [if_neg hlen, Access.within_bind, hfind, or_iff_right hlen]
  refine and_iff_left_of_imp fun hwithin => ?_
  cases findKeyIdx p (charsAt beyond buf key) keyLen with
  | none => exact Access.within_pure none
  | some keyIdx =>
    dsimp only
    split
    · exact Access.within_pure none
    split
    · exact Access.within_pure none
    refine Access.within_bind.mpr ⟨hwithin, ?_⟩
    split
    · exact Access.within_pure none
    · split <;> exact Access.within_pure _

/-- A slot for a key that is there as a whole: a new key needs a NUL. -/
theorem within_slotForKey_iff {p : ConfigPartition} (h : key + keyLen ≤ buf.length)
    (hbuf : buf.length < addressSpace) (hlen : ¬ keyLen > maxKeyLenBytes) :
    (Traced.slotForKey p key keyLen).Within beyond buf ↔
      (KeyAppended p (charsAt beyond buf key) keyLen → 0 ∈ buf.drop key) := by
  have hspace := keyLen_le_addressSpace hlen
  rw [Traced.slotForKey, Access.within_bind, run_findKeyIdx beyond buf key p hspace,
    and_iff_right (within_findKeyIdx h)]
  unfold KeyAppended
  cases findKeyIdx p (charsAt beyond buf key) keyLen with
  | some keyIdx => simp [Access.within_pure]
  | none =>
    have hvalid : (Traced.isKeyValid key keyLen).Within beyond buf := Access.within_allAt h
    dsimp only
    rw [Access.within_bind, run_isKeyValid beyond buf key hspace, and_iff_right hvalid]
    cases isKeyValid (charsAt beyond buf key) keyLen with
    | false => simp [Access.within_pure]
    | true =>
      by_cases hroom : p.numKeys ≥ maxNumKv
      · have hfull : ¬ p.numKeys < maxNumKv := by omega
        simp [hroom, hfull, Access.within_pure]
      · have hspare : p.numKeys < maxNumKv := by omega
        have hstring : (Access.cStringAt key addressSpace).Within beyond buf ↔ 0 ∈ buf.drop key :=
          Access.within_cStringAt_iff (by omega) (by omega)
        simp [hroom, hspare, Access.within_bind, Access.within_pure, hstring]

theorem within_setConfigCbor_iff {cbor : TinyCbor} {info : ConfigInfo} {value valueLen : Nat} :
    (Traced.setConfigCbor cbor info key keyLen value valueLen).Within beyond buf ↔
      (¬ keyLen > maxKeyLenBytes → ¬ (valueLen > maxConfigBufferSizeBytes ∨ valueLen = 0) →
        value + valueLen ≤ buf.length ∧
        (cbor.parserInit (window beyond buf value valueLen) = true →
          cbor.type (window beyond buf value valueLen) ≠ .invalid →
            (Traced.slotForKey info.ramBuffer key keyLen).Within beyond buf)) := by
  unfold Traced.setConfigCbor
  by_cases hlen : keyLen > maxKeyLenBytes
  · simp [hlen, Access.within_pure]
  by_cases hsize : valueLen > maxConfigBufferSizeBytes ∨ valueLen = 0
  · simp only [hlen, hsize, if_false, if_true, Access.within_pure, not_true_eq_false, false_imp_iff,
      implies_true]
  have hread : (Access.readRange value valueLen).run beyond buf =
      (window beyond buf value valueLen, buf) := Access.run_readRange value valueLen buf
  have hpos : valueLen ≠ 0 := fun h => hsize (.inr h)
  rw [if_neg hlen, if_neg hsize, Access.within_bind, hread, Access.within_readRange_iff,
    or_iff_right hpos]
  simp only [hlen, hsize, not_false_eq_true, true_imp_iff]
  refine and_congr_right fun _ => ?_
  generalize window beyond buf value valueLen = bytes
  cases hinit : cbor.parserInit bytes with
  | false => simp [Access.within_pure]
  | true =>
    by_cases htype : cbor.type bytes = .invalid
    · simp [htype, Access.within_pure]
    simp only [Bool.not_true, Bool.false_eq_true, if_false, htype, Access.within_bind,
      ne_eq, not_false_eq_true, true_imp_iff]
    refine and_iff_left_of_imp fun _ => ?_
    split
    · exact Access.within_pure _
    · split <;> exact Access.within_pure _

theorem within_removeKey_iff {info : ConfigInfo} :
    (Traced.removeKey info key keyLen).Within beyond buf ↔
      (Traced.findKeyIdx info.ramBuffer key keyLen).Within beyond buf := by
  rw [Traced.removeKey, Access.within_bind]
  refine and_iff_left_of_imp fun _ => ?_
  split <;> exact Access.within_pure _

end Within

end BmCore.Configuration
