import BmCore.Bcmp.Config
import BmCore.Configuration.FiniteMap
import BmCore.Library.Accesses

/-!
# Status responses

The keys of a partition in a status response: `bcmp_config_status_response`, and the walk of
`bcmp_process_config_message` over the message. Both move a pointer to a `BmConfigStatusKeyData` by
numbers of bytes; it is the offset in the message here.

The walk stays at an entry for which there is no memory.
-/
namespace BmCore.Bcmp
open Library Configuration

/-- `sizeof(BmConfigStatusKeyData)`; the key behind the length has no size of its own. -/
def statusKeyDataSize : Nat := 1
/-- `sizeof(BmConfigStatusResponse)` -/
def statusResponseSize : Nat := 19
/-- `bcmp_max_payload_size_bytes` -/
def bcmpMaxPayloadSizeBytes : Nat := 1500

/-- `key_data += n` -/
def stepKeyData (keyData n : Nat) : Nat := keyData + n * statusKeyDataSize

/-! ## Writing -/

section Write
variable (p : ConfigPartition) (target source : UInt64) (partition : UInt8) (committed : Bool)

/-- `msg_size` -/
def statusMsgSize : Nat :=
  (List.range p.numKeys).foldl (fun size i => size + statusKeyDataSize + (p.keys i).keyLen)
    statusResponseSize

/-- The fields of a status response in front of its keys. -/
def statusFields : List UInt8 :=
  configHeader target source ++ [partition, if committed then 1 else 0, .ofNat p.numKeys]

/-- The loop over the keys, for `n` rounds from a key on. -/
def writeKeyData (keys : Nat → ConfigKey) : (n i keyData : Nat) → Access UInt8 Nat
  | 0, _, keyData => pure keyData
  | n + 1, i, keyData => do
    Access.writeAt keyData (.ofNat (keys i).keyLen)
    Access.writeRange (keyData + 1) ((keys i).keyBuf.bytes.take (keys i).keyLen)
    writeKeyData keys n (i + 1)
      (stepKeyData (stepKeyData keyData statusKeyDataSize) (keys i).keyLen)

def writeStatusResponse : Access UInt8 Nat := do
  Access.writeRange 0 (statusFields p target source partition committed)
  writeKeyData p.keys p.numKeys 0 statusResponseSize

/-- `bcmp_config_status_response`: the message that is sent, with the memory for it if there is
some. -/
def bcmpConfigStatusResponse (block : Option (List UInt8)) : Option (List UInt8) :=
  if statusMsgSize p > bcmpMaxPayloadSizeBytes then none
  else block.map fun block =>
    ((writeStatusResponse p target source partition committed).run (fun _ => 0) block).2

end Write

/-! ## Reading -/

/-- The loop over the entries: the keys, and where it ends. A round has memory for its key or
not. -/
def readKeyData : (allocs : List Bool) → (key : Nat) → Access UInt8 (List (List UInt8 × Nat) × Nat)
  | [], key => pure ([], key)
  | alloc :: allocs, key => do
    let keyLength ← Access.readAt key
    if alloc then do
      let keyBuf ← Access.readRange (key + 1) keyLength.toNat
      let (keys, last) ← readKeyData allocs
        (stepKeyData key (keyLength.toNat + statusKeyDataSize))
      pure ((keyBuf, keyLength.toNat) :: keys, last)
    else readKeyData allocs key

/-- What `bcmp_process_config_message` makes of a status response. -/
def readStatusResponse (alloc : Nat → Bool) : Access UInt8 (List (List UInt8 × Nat) × Nat) := do
  let numKeys ← Access.readAt 18
  readKeyData ((List.range numKeys.toNat).map alloc) statusResponseSize

/-! ## Entries -/

/-- A key in a message. -/
def keyEntry (k : List UInt8 × Nat) : List UInt8 := .ofNat k.2 :: k.1

def keyEntries (ks : List (List UInt8 × Nat)) : List UInt8 := ks.flatMap keyEntry

@[simp] theorem keyEntries_nil : keyEntries [] = [] := rfl

@[simp] theorem keyEntries_cons (k : List UInt8 × Nat) (ks : List (List UInt8 × Nat)) :
    keyEntries (k :: ks) = keyEntry k ++ keyEntries ks := rfl

@[simp] theorem length_keyEntry (k : List UInt8 × Nat) :
    (keyEntry k).length = k.1.length + 1 := rfl

/-- A key that is as long as it says, for a length of one byte. -/
def ShortKey (k : List UInt8 × Nat) : Prop := k.1.length = k.2 ∧ k.2 < 256

/-- The keys from an index on. -/
def storedKeysFrom (keys : Nat → ConfigKey) (i n : Nat) : List (List UInt8 × Nat) :=
  (List.range' i n).map fun j => (keys j).listed

theorem storedKeysFrom_zero (p : ConfigPartition) :
    storedKeysFrom p.keys 0 p.numKeys = getStoredKeys p := by
  rw [storedKeysFrom, getStoredKeys, List.range_eq_range']
  rfl

theorem storedKeysFrom_succ (keys : Nat → ConfigKey) (i n : Nat) :
    storedKeysFrom keys i (n + 1) = (keys i).listed :: storedKeysFrom keys (i + 1) n := by
  rw [storedKeysFrom, List.range'_succ, List.map_cons, storedKeysFrom]

section Entries
variable (beyond : Nat → UInt8)

theorem stepKeyData_entry (keyData : Nat) {k : List UInt8 × Nat} (h : ShortKey k) :
    stepKeyData (stepKeyData keyData statusKeyDataSize) k.2 = keyData + (keyEntry k).length := by
  simp only [stepKeyData, statusKeyDataSize, length_keyEntry, h.1]
  omega

/-- Every key goes directly behind the one before it. -/
theorem puts_writeKeyData (keys : Nat → ConfigKey) (n i keyData : Nat)
    (hkeys : ∀ k ∈ storedKeysFrom keys i n, ShortKey k) :
    Access.Puts beyond keyData (keyEntries (storedKeysFrom keys i n))
      (writeKeyData keys n i keyData)
      (keyData + (keyEntries (storedKeysFrom keys i n)).length) := by
  induction n generalizing i keyData with
  | zero => exact Access.puts_pure _ _
  | succ n ih =>
    rw [storedKeysFrom_succ] at hkeys ⊢
    obtain ⟨hkey, hrest⟩ := List.forall_mem_cons.mp hkeys
    have hnext := ih (i + 1) (keyData + (keyEntry (keys i).listed).length) hrest
    rw [keyEntries_cons, List.length_append, ← Nat.add_assoc]
    have hstep : stepKeyData (stepKeyData keyData statusKeyDataSize) (keys i).keyLen =
      keyData + (keyEntry (keys i).listed).length := stepKeyData_entry keyData hkey
    have hbehind : keyData + 1 + (keys i).listed.1.length =
        keyData + (keyEntry (keys i).listed).length := by
      rw [length_keyEntry]
      omega
    refine (Access.puts_writeAt keyData _).bind ((Access.puts_writeRange (keyData + 1) _).bind ?_)
    rw [hstep]
    exact hbehind ▸ hnext

/-- The fields in front of the keys stay as they are. -/
theorem take_run_writeKeyData (keys : Nat → ConfigKey) (n i : Nat) {k keyData : Nat}
    (h : k ≤ keyData) (buf : List UInt8) :
    ((writeKeyData keys n i keyData).run beyond buf).2.take k = buf.take k := by
  induction n generalizing i keyData buf with
  | zero => rfl
  | succ n ih =>
    have hstep : k ≤ stepKeyData (stepKeyData keyData statusKeyDataSize) (keys i).keyLen := by
      simp only [stepKeyData]
      omega
    rw [writeKeyData, Access.run_bind, Access.run_bind, ih (i + 1) hstep,
      Access.take_run_writeRange (by omega), Access.run_writeAt, List.take_set_of_le h]

/-- The walk finds a key in every round that has memory for it. -/
theorem yields_readKeyData {ks : List (List UInt8 × Nat)} (hkeys : ∀ k ∈ ks, ShortKey k)
    (allocs : List Bool) (hrounds : allocs.length ≤ ks.length) (pre post : List UInt8) :
    Access.Yields beyond (pre ++ keyEntries ks ++ post) (readKeyData allocs pre.length)
      (ks.take (allocs.count true),
        pre.length + (keyEntries (ks.take (allocs.count true))).length) := by
  induction allocs generalizing ks pre with
  | nil => exact Access.yields_pure _
  | cons alloc allocs ih =>
    cases ks with
    | nil => simp at hrounds
    | cons k ks =>
      obtain ⟨⟨hlength, hshort⟩, hrest⟩ := List.forall_mem_cons.mp hkeys
      have hbyte : (UInt8.ofNat k.2).toNat = k.2 := by
        rw [UInt8.toNat_ofNat']
        exact Nat.mod_eq_of_lt hshort
      have hhead : (pre ++ keyEntries (k :: ks) ++ post)[pre.length]? = some (.ofNat k.2) := by
        simp [keyEntry]
      refine (Access.yields_readAt hhead).bind ?_
      rw [hbyte]
      cases alloc with
      | false =>
        rw [if_neg (by decide), List.count_cons_of_ne (by decide)]
        exact ih hkeys (by simp at hrounds ⊢; omega) pre
      | true =>
        have hnext := ih hrest (by simpa using hrounds) (pre ++ keyEntry k)
        have hoff : pre.length + (keyEntry k).length =
            stepKeyData pre.length (k.2 + statusKeyDataSize) := by
          simp [stepKeyData, statusKeyDataSize, hlength]
        have hread : Access.Yields beyond (pre ++ keyEntries (k :: ks) ++ post)
            (Access.readRange (pre.length + 1) k.2) k.1 := by
          have hrange : Access.Yields beyond
              (pre ++ [UInt8.ofNat k.2] ++ k.1 ++ (keyEntries ks ++ post))
              (Access.readRange (pre ++ [UInt8.ofNat k.2]).length k.1.length) k.1 :=
            Access.yields_readRange _ _ _
          rw [hlength] at hrange
          simpa [keyEntry] using hrange
        have hbuf : pre ++ keyEntry k ++ keyEntries ks ++ post =
            pre ++ keyEntries (k :: ks) ++ post := by simp
        rw [hbuf, List.length_append, hoff] at hnext
        rw [if_pos rfl, List.count_cons_self, List.take_succ_cons]
        refine hread.bind (hnext.bind ?_)
        have hlast : stepKeyData pre.length (k.2 + statusKeyDataSize) +
            (keyEntries (ks.take (allocs.count true))).length =
            pre.length + (keyEntries (k :: ks.take (allocs.count true))).length := by
          rw [← hoff, keyEntries_cons, List.length_append]
          omega
        rw [hlast]
        exact Access.yields_pure _

end Entries

/-! ## The round trip -/

/-- The keys of a partition fit into their buffers, as the setters see to. -/
def KeysFit (p : ConfigPartition) : Prop := ∀ i < p.numKeys, (p.keys i).keyLen ≤ maxKeyLenBytes

section Partition
variable {p : ConfigPartition}

/-- In every reachable store they do. -/
theorem KeysFit.of_sound (h : Sound p) : KeysFit p := h.keyLen_le

theorem KeysFit.shortKeys (h : KeysFit p) : ∀ k ∈ getStoredKeys p, ShortKey k := by
  intro k hk
  obtain ⟨i, hi, rfl⟩ := List.mem_map.mp hk
  have hle := h i (List.mem_range.mp hi)
  have hlength := (p.keys i).keyBuf.length_eq
  constructor
  · rw [List.length_take]
    omega
  · simp only [maxKeyLenBytes] at hle
    omega

theorem length_getStoredKeys : (getStoredKeys p).length = p.numKeys := by simp [getStoredKeys]

variable (p) in
theorem length_statusFields (target source : UInt64) (partition : UInt8) (committed : Bool) :
    (statusFields p target source partition committed).length = statusResponseSize := by
  simp [statusFields, configHeader, statusResponseSize]

theorem le_statusMsgSize (p : ConfigPartition) : statusResponseSize ≤ statusMsgSize p := by
  have hfold : ∀ (is : List Nat) (size : Nat),
      size ≤ is.foldl (fun size i => size + statusKeyDataSize + (p.keys i).keyLen) size := by
    intro is
    induction is with
    | nil => exact le_refl
    | cons i is ih =>
      intro size
      refine le_trans ?_ (ih _)
      dsimp only
      omega
  exact hfold _ _

/-- The size of a message is that of its fields and its entries. -/
theorem statusMsgSize_eq (h : KeysFit p) :
    statusMsgSize p = statusResponseSize + (keyEntries (getStoredKeys p)).length := by
  have hfold : ∀ (is : List Nat) (size : Nat), (∀ i ∈ is, ShortKey (p.keys i).listed) →
      is.foldl (fun size i => size + statusKeyDataSize + (p.keys i).keyLen) size =
        size + (keyEntries (is.map fun i => (p.keys i).listed)).length := by
    intro is
    induction is with
    | nil => simp
    | cons i is ih =>
      intro size hshort
      obtain ⟨⟨hlength, -⟩, hrest⟩ := List.forall_mem_cons.mp hshort
      have hkey : (p.keys i).listed.1.length = (p.keys i).keyLen := hlength
      rw [List.foldl_cons, ih _ hrest, List.map_cons, keyEntries_cons, List.length_append,
        length_keyEntry, hkey]
      simp only [statusKeyDataSize]
      omega
  exact hfold _ _ fun i hi => h.shortKeys _ (List.mem_map_of_mem hi)

section Message
variable (target source : UInt64) (partition : UInt8) (committed : Bool)

/-- A status response, with an entry for every key behind its fields. -/
def statusMessage (p : ConfigPartition) : List UInt8 :=
  statusFields p target source partition committed ++ keyEntries (getStoredKeys p)

/-- Whatever the keys are, a status response starts with its fields. -/
theorem statusResponse_fields {block : Option (List UInt8)} {msg : List UInt8}
    (hblock : ∀ b, block = some b → b.length = statusMsgSize p)
    (h : bcmpConfigStatusResponse p target source partition committed block = some msg) :
    ∃ rest, msg = statusFields p target source partition committed ++ rest := by
  unfold bcmpConfigStatusResponse at h
  split at h
  · cases h
  obtain ⟨b, hb, rfl⟩ := Option.map_eq_some_iff.mp h
  have hfields := length_statusFields p target source partition committed
  have hroom : statusResponseSize ≤ b.length := by
    rw [hblock b hb]
    exact le_statusMsgSize p
  have htake : ((writeStatusResponse p target source partition committed).run
      (fun _ => 0) b).2.take statusResponseSize =
        statusFields p target source partition committed := by
    rw [writeStatusResponse, Access.run_bind, take_run_writeKeyData _ _ _ _ le_rfl,
      Access.run_writeRange (by omega), List.take_zero, List.nil_append, List.take_left' hfields]
  exact ⟨_, by rw [← htake, List.take_append_drop]⟩

theorem puts_writeStatusResponse (h : KeysFit p) (beyond : Nat → UInt8) :
    Access.Puts beyond 0 (statusMessage target source partition committed p)
      (writeStatusResponse p target source partition committed) (statusMsgSize p) := by
  have hloop := puts_writeKeyData beyond p.keys p.numKeys 0 statusResponseSize
    (by rw [storedKeysFrom_zero]; exact h.shortKeys)
  rw [storedKeysFrom_zero, ← statusMsgSize_eq h] at hloop
  refine (Access.puts_writeRange 0 _).bind ?_
  rw [length_statusFields, Nat.zero_add]
  exact hloop

/-- The walk over a status response. -/
theorem yields_readStatusResponse (h : KeysFit p) (hnum : p.numKeys ≤ 255) (beyond : Nat → UInt8)
    (alloc : Nat → Bool) :
    Access.Yields beyond (statusMessage target source partition committed p)
      (readStatusResponse alloc)
      ((getStoredKeys p).take (((List.range p.numKeys).map alloc).count true),
        statusResponseSize + (keyEntries ((getStoredKeys p).take
          (((List.range p.numKeys).map alloc).count true))).length) := by
  have hfields := length_statusFields p target source partition committed
  have hbyte : (UInt8.ofNat p.numKeys).toNat = p.numKeys := by
    rw [UInt8.toNat_ofNat']
    exact Nat.mod_eq_of_lt (by omega)
  have hnumKeys : (statusMessage target source partition committed p)[18]? =
      some (.ofNat p.numKeys) := by
    rw [statusMessage, List.getElem?_append_left (by rw [hfields]; decide), statusFields,
      List.getElem?_append_right (by simp [configHeader])]
    simp [configHeader]
  refine (Access.yields_readAt hnumKeys).bind ?_
  rw [hbyte]
  have hwalk := yields_readKeyData beyond h.shortKeys ((List.range p.numKeys).map alloc)
    (by simp [length_getStoredKeys]) (statusFields p target source partition committed) []
  rw [hfields, List.append_nil] at hwalk
  exact hwalk

end Message

end Partition

/-- A status response is written within its memory, and a walk with memory for every key finds the
keys of the partition and ends at the end of the message. Without memory for some rounds it finds
the first ones. -/
theorem status_round_trip {p : ConfigPartition} (hkeys : KeysFit p) (hnum : p.numKeys ≤ 255)
    (hsize : statusMsgSize p ≤ bcmpMaxPayloadSizeBytes) (target source : UInt64) (partition : UInt8)
    (committed : Bool) (beyond : Nat → UInt8) {block : List UInt8}
    (hblock : block.length = statusMsgSize p) :
    (writeStatusResponse p target source partition committed).Within beyond block ∧
    ∃ msg, bcmpConfigStatusResponse p target source partition committed (some block) = some msg ∧
      msg.length = statusMsgSize p ∧ ∀ alloc,
        (readStatusResponse alloc).Within beyond msg ∧
        ((readStatusResponse alloc).run beyond msg).1.1 =
          (getStoredKeys p).take (((List.range p.numKeys).map alloc).count true) ∧
        ((∀ i < p.numKeys, alloc i = true) →
          ((readStatusResponse alloc).run beyond msg).1 = (getStoredKeys p, msg.length)) := by
  have hlength : (statusMessage target source partition committed p).length = statusMsgSize p := by
    rw [statusMessage, List.length_append, length_statusFields, statusMsgSize_eq hkeys]
  have hput := fun beyond =>
    puts_writeStatusResponse target source partition committed hkeys beyond block (by omega)
  have hmsg : bcmpConfigStatusResponse p target source partition committed (some block) =
      some (statusMessage target source partition committed p) := by
    rw [bcmpConfigStatusResponse, if_neg (by omega), Option.map_some, (hput _).2]
    rw [List.drop_of_length_le (by omega)]
    simp
  refine ⟨(hput beyond).1, _, hmsg, hlength, fun alloc => ?_⟩
  have hread :=
    yields_readStatusResponse target source partition committed hkeys hnum beyond alloc
  refine ⟨hread.within, by rw [hread.run_eq], fun halloc => ?_⟩
  have hall : ((List.range p.numKeys).map alloc).count true = (getStoredKeys p).length := by
    have hlist : (List.range p.numKeys).map alloc = List.replicate p.numKeys true :=
      List.eq_replicate_iff.mpr ⟨by simp, by simpa using halloc⟩
    rw [hlist, List.count_replicate_self, length_getStoredKeys]
  rw [hread.run_eq, hall, List.take_length, ← statusMsgSize_eq hkeys, hlength]

/-- Keys of one and of two characters. -/
def twoKeys : Configuration.System :=
  [.store .user (.set [0x61] 1 (.typed (.uint 5))),
    .store .user (.set [0x62, 0x62] 2 (.typed (.int (-2))))].foldl (step tinyCbor) freshSystem

theorem status_round_trip_twoKeys :
    let p := (twoKeys.configs .user).ramBuffer
    ∃ msg, bcmpConfigStatusResponse p 1 2 0 true (some (List.replicate 24 0)) = some msg ∧
      ((readStatusResponse fun _ => true).run (fun _ => 0) msg).1 =
        ([([0x61], 1), ([0x62, 0x62], 2)], 24) ∧
      ((readStatusResponse fun i => i = 1).run (fun _ => 0) msg).1.1 = [([0x61], 1)] := by
  intro p
  have hreachable : Reachable tinyCbor twoKeys := ⟨_, _, freshSystem_initial, rfl⟩
  have hsound : Sound p := hreachable.sound.configs .user
  have hkeys : getStoredKeys p = [([0x61], 1), ([0x62, 0x62], 2)] := by decide +kernel
  have hsize : statusMsgSize p = 24 := by decide +kernel
  have htwo : p.numKeys = 2 := by decide +kernel
  have hnum : p.numKeys ≤ 255 := hsound.numKeys_le.trans (by decide)
  have hblock : (List.replicate 24 (0 : UInt8)).length = statusMsgSize p := by
    rw [hsize, List.length_replicate]
  obtain ⟨-, msg, hmsg, hlength, hread⟩ := status_round_trip (.of_sound hsound) hnum
    (by rw [hsize]; decide) 1 2 0 true (fun _ => 0) hblock
  refine ⟨msg, hmsg, ?_, ?_⟩
  · rw [(hread fun _ => true).2.2 fun _ _ => rfl, hkeys, hlength, hsize]
  · rw [(hread fun i => i = 1).2.1, hkeys, htwo]
    rfl

end BmCore.Bcmp
