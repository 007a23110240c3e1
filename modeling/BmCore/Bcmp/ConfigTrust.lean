import BmCore.Bcmp.ConfigHandlers

/-!
# What the config handlers trust

A handler should look at the bytes of its message only, and at no element behind `CONFIGS`. Then
what it does is determined by these bytes and the store. None of the handlers is given the size of
its message, and most of them take the partition as it comes, so that this depends on the message:
`Trustworthy` says when it is so.

TinyCBOR is taken to read all the bytes it is given.
-/
namespace BmCore.Bcmp
open Library Configuration Access

/-! ## Effects -/

/-- What a handler does to the store, to the flash and to the network. -/
structure Effect where
  reply : Option ConfigReply
  saved : Option (Nat × ConfigPartition)
  store : Fin bmCfgPartitionCount → ConfigInfo

def ConfigOutcome.effect (configs : Nat → ConfigInfo) (o : ConfigOutcome) : Effect :=
  ⟨o.reply, o.saved, fun i => o.configs configs i⟩

/-- Nothing is changed and nothing is disclosed. -/
def Effect.none (configs : Nat → ConfigInfo) : Effect :=
  ⟨.none, .none, fun i => configs i⟩

/-- What comes of a message at a node, unless it is forwarded. -/
def configOutcome (node : ConfigNode) (m : ConfigMessage) (seqNum : UInt32) (beyond : Nat → UInt8)
    (payload : List UInt8) : Option ConfigOutcome :=
  ((Traced.bcmpProcessConfigMessage node m seqNum).run beyond payload).1

/-! ## Fields of a message -/

def byteOf (payload : List UInt8) (off : Nat) : Nat := (payload.getD off 0).toNat

/-- A number of some entries is there as a whole. -/
def EntriesIn : Nat → List UInt8 → Prop
  | 0, _ => True
  | _ + 1, [] => False
  | n + 1, keyLength :: rest =>
    keyLength.toNat ≤ rest.length ∧ EntriesIn n (rest.drop keyLength.toNat)

/-- A length in a message reaches behind its end. -/
def LengthsExceed (m : ConfigMessage) (payload : List UInt8) : Prop :=
  match m with
  | .get => payload.length < 18 + byteOf payload 17
  | .set => payload.length < 22 + byteOf payload 17 + fieldAt payload 18 4
  | .value => payload.length < 21 + fieldAt payload 17 4
  | .statusResponse => ¬ EntriesIn (byteOf payload 18) (payload.drop 19)
  | .deleteRequest => payload.length < 18 + byteOf payload 17
  | .deleteResponse => payload.length < 19 + byteOf payload 18
  | .commit | .statusRequest | .clearRequest | .clearResponse => False

/-- A handler reads the bytes of the message only, it indexes `CONFIGS` within its bounds, what it
does is a function of the message and the store, and a message whose lengths reach behind its end
does nothing. -/
structure TrustsReceived (node : ConfigNode) (m : ConfigMessage) (seqNum : UInt32)
    (beyond : Nat → UInt8) (payload : List UInt8) : Prop where
  within : (Traced.bcmpProcessConfigMessage node m seqNum).Within beyond payload
  indexed : ∀ o, configOutcome node m seqNum beyond payload = some o →
    ∀ i ∈ o.indexed, i < bmCfgPartitionCount
  determined : ∀ beyond' configs', (∀ i < bmCfgPartitionCount, configs' i = node.configs i) →
    (configOutcome { node with configs := configs' } m seqNum beyond' payload).map
        (·.effect configs') =
      (configOutcome node m seqNum beyond payload).map (·.effect node.configs)
  cut : LengthsExceed m payload → ∀ o, configOutcome node m seqNum beyond payload = some o →
    o.effect node.configs = .none node.configs

/-! ## Messages that can be trusted -/

/-- A key is there as a whole. Or what is there of it tells it from the stored keys, or ends it, and
no value is found for it. -/
def KeyThere (cbor : TinyCbor) (p : ConfigPartition) (payload : List UInt8) (off keyLen : Nat) :
    Prop :=
  off + keyLen ≤ payload.length ∨ (KeyDecided p (payload.drop off) keyLen ∧
    getConfigCbor cbor p (payload.drop off) keyLen maxConfigBufferSizeBytes = none)

/-- A message that its handler can take at its word. -/
def Trustworthy (cbor : TinyCbor) (configs : Nat → ConfigInfo) (m : ConfigMessage)
    (payload : List UInt8) : Prop :=
  let partition := byteOf payload 16
  match m with
  | .get =>
    let keyLen := byteOf payload 17
    18 ≤ payload.length ∧ partition < bmCfgPartitionCount ∧
      (keyLen ≤ maxKeyLenBytes → KeyThere cbor (configs partition).ramBuffer payload 18 keyLen)
  | .set =>
    let keyLen := byteOf payload 17
    let dataLength := fieldAt payload 18 4
    let data := (payload.drop (22 + keyLen)).take dataLength
    22 ≤ payload.length ∧
      (0 < dataLength → dataLength ≤ maxConfigBufferSizeBytes → partition < bmCfgPartitionCount ∧
        (keyLen ≤ maxKeyLenBytes → 22 + keyLen + dataLength ≤ payload.length ∧
          -- a new key is copied up to its NUL
          (cbor.parserInit data = true → cbor.type data ≠ .invalid →
            KeyAppended (configs partition).ramBuffer (payload.drop 22) keyLen →
              0 ∈ payload.drop 22)))
  | .commit | .statusRequest => 17 ≤ payload.length ∧ partition < bmCfgPartitionCount
  | .statusResponse => 19 ≤ payload.length ∧ EntriesIn (byteOf payload 18) (payload.drop 19)
  | .value => 21 + fieldAt payload 17 4 ≤ payload.length
  | .deleteRequest =>
    18 + byteOf payload 17 ≤ payload.length ∧ partition < bmCfgPartitionCount
  | .deleteResponse => 19 + byteOf payload 18 ≤ payload.length
  | .clearRequest => 17 ≤ payload.length
  | .clearResponse => 18 ≤ payload.length

/-! ## Outcomes depend on what is indexed -/

section Congr
variable {node : ConfigNode} {m : ConfigMessage} {seqNum : UInt32} {beyond : Nat → UInt8}
  {payload : List UInt8} {configs' : Nat → ConfigInfo}

theorem effect_congr (h : ∀ i < bmCfgPartitionCount, configs' i = node.configs i)
    (o : ConfigOutcome) : o.effect configs' = o.effect node.configs := by
  unfold ConfigOutcome.effect ConfigOutcome.configs
  congr 1
  funext i
  cases o.change with
  | none => exact h i i.isLt
  | some change =>
    simp only [Function.update_apply]
    split
    · rfl
    · exact h i i.isLt

/-- Only the elements that are indexed play a part. -/
theorem handle_congr
    (h : ∀ i ∈ ((handleConfigMessage node m seqNum).run beyond payload).1.indexed,
      configs' i = node.configs i) :
    (handleConfigMessage { node with configs := configs' } m seqNum).run beyond payload =
      (handleConfigMessage node m seqNum).run beyond payload := by
  cases m with
  | get =>
    have hsame : { node with configs := configs' }.malloc 0 maxConfigBufferSizeBytes =
      node.malloc 0 maxConfigBufferSizeBytes := rfl
    simp only [handleConfigMessage, bcmpConfigProcessConfigGetMsg, hsame] at h ⊢
    cases hmalloc : node.malloc 0 maxConfigBufferSizeBytes with
    | none => rfl
    | some block =>
      simp only [hmalloc, run_bind, run_byteField, run_getConfigCbor] at h ⊢
      have hconfig : configs' (byteAt beyond payload 16).toNat =
          node.configs (byteAt beyond payload 16).toNat := by
        refine h _ ?_
        split <;> simp
      rw [hconfig]
      rfl
  | set =>
    simp only [handleConfigMessage, bcmpConfigProcessConfigSetMsg, run_bind, run_dataLengthField]
      at h ⊢
    split
    · rfl
    · rename_i hlength
      simp only [hlength, if_false, run_bind, run_byteField, run_setConfigCbor] at h ⊢
      have hconfig : configs' (byteAt beyond payload 16).toNat =
          node.configs (byteAt beyond payload 16).toNat := by
        refine h _ ?_
        split <;> simp
      rw [hconfig]
      rfl
  | commit =>
    simp only [handleConfigMessage, bcmpConfigProcessCommitMsg, run_bind, run_byteField] at h ⊢
    have hsave : saveConfig (configs' (byteAt beyond payload 16).toNat) node.written =
        saveConfig (node.configs (byteAt beyond payload 16).toNat) node.written :=
      congrArg (saveConfig · node.written) (h _ (by simp))
    simp only [hsave]
  | statusRequest =>
    simp only [handleConfigMessage, bcmpConfigProcessStatusRequestMsg, run_bind, run_byteField,
      run_sourceField, run_pure, needsCommit] at h ⊢
    have hconfig : configs' (byteAt beyond payload 16).toNat =
        node.configs (byteAt beyond payload 16).toNat := h _ (by simp)
    simp only [hconfig]
    rfl
  | statusResponse => rfl
  | value => rfl
  | deleteRequest =>
    simp only [handleConfigMessage, bcmpProcessDelRequestMessage, run_bind, run_byteField,
      run_sourceField, run_pure] at h ⊢
    have hconfig : configs' (byteAt beyond payload 16).toNat =
        node.configs (byteAt beyond payload 16).toNat := h _ (by simp)
    rw [hconfig]
    rfl
  | deleteResponse => rfl
  | clearRequest =>
    simp only [handleConfigMessage, bcmpProcessClearRequestMessage, run_bind, run_byteField,
      run_sourceField]
    split <;> rfl
  | clearResponse => rfl

end Congr

/-! ## The handlers one by one -/

/-- What a handler does. -/
def handled (node : ConfigNode) (m : ConfigMessage) (seqNum : UInt32) (beyond : Nat → UInt8)
    (payload : List UInt8) : ConfigOutcome :=
  ((handleConfigMessage node m seqNum).run beyond payload).1

/-- The part of `TrustsReceived` that is up to the handler. -/
structure HandlerTrusts (node : ConfigNode) (m : ConfigMessage) (seqNum : UInt32)
    (beyond : Nat → UInt8) (payload : List UInt8) : Prop where
  within : (handleConfigMessage node m seqNum).Within beyond payload
  indexed : ∀ i ∈ (handled node m seqNum beyond payload).indexed, i < bmCfgPartitionCount
  cut : LengthsExceed m payload →
    (handled node m seqNum beyond payload).effect node.configs = .none node.configs

section Handlers
variable {node : ConfigNode} {seqNum : UInt32} {beyond : Nat → UInt8} {payload : List UInt8}

theorem byteAt_eq_byteOf {off : Nat} (h : off < payload.length) :
    (byteAt beyond payload off).toNat = byteOf payload off := by
  simp [byteAt, byteOf, h]

theorem leNat_window_eq_fieldAt {off len : Nat} (h : off + len ≤ payload.length) :
    leNat (window beyond payload off len) = fieldAt payload off len := by
  rw [window_eq_slice _ _ h, fieldAt]

/-- A handler that needs the partition and indexes it, and reads no length. -/
theorem partition_trusts_iff {m : ConfigMessage}
    (hwithin : (handleConfigMessage node m seqNum).Within beyond payload ↔ 17 ≤ payload.length)
    (hindexed : (handled node m seqNum beyond payload).indexed = [(byteAt beyond payload 16).toNat])
    (hlengths : ¬ LengthsExceed m payload) :
    HandlerTrusts node m seqNum beyond payload ↔
      17 ≤ payload.length ∧ byteOf payload 16 < bmCfgPartitionCount := by
  constructor
  · intro h
    have hsize := hwithin.mp h.within
    have hpartition := h.indexed
    rw [hindexed, byteAt_eq_byteOf (by omega)] at hpartition
    exact ⟨hsize, by simpa using hpartition⟩
  · rintro ⟨hsize, hpartition⟩
    refine ⟨hwithin.mpr hsize, ?_, fun hcut => absurd hcut hlengths⟩
    rw [hindexed, byteAt_eq_byteOf (by omega)]
    simpa using hpartition

theorem commit_trusts_iff : HandlerTrusts node .commit seqNum beyond payload ↔
    Trustworthy node.cbor node.configs .commit payload := by
  refine partition_trusts_iff ?_ rfl id
  simp only [handleConfigMessage, bcmpConfigProcessCommitMsg, within_bind, within_byteField,
    within_pure, and_true]
  omega

theorem statusRequest_trusts_iff : HandlerTrusts node .statusRequest seqNum beyond payload ↔
    Trustworthy node.cbor node.configs .statusRequest payload := by
  refine partition_trusts_iff ?_ ?_ id
  · simp only [handleConfigMessage, bcmpConfigProcessStatusRequestMsg, within_bind,
      within_byteField, within_sourceField, run_byteField, within_pure, and_true]
    omega
  · simp only [handled, handleConfigMessage, bcmpConfigProcessStatusRequestMsg, run_bind,
      run_byteField, run_sourceField, run_pure]

theorem value_trusts_iff : HandlerTrusts node .value seqNum beyond payload ↔
    Trustworthy node.cbor node.configs .value payload := by
  have hwithin : (handleConfigMessage node .value seqNum).Within beyond payload ↔
      21 + fieldAt payload 17 4 ≤ payload.length := by
    simp only [handleConfigMessage, bcmpProcessValueMessage, within_bind, within_dataLengthField,
      run_dataLengthField, within_readRange_iff, within_pure, and_true]
    by_cases hsize : 21 ≤ payload.length
    · rw [leNat_window_eq_fieldAt hsize]
      omega
    · omega
  refine ⟨fun h => hwithin.mp h.within, fun h => ⟨hwithin.mpr h, ?_, fun hcut => ?_⟩⟩
  · simp [handled, handleConfigMessage, bcmpProcessValueMessage]
  · exact absurd hcut (Nat.not_lt.mpr h)

theorem clearRequest_trusts_iff : HandlerTrusts node .clearRequest seqNum beyond payload ↔
    Trustworthy node.cbor node.configs .clearRequest payload := by
  have hwithin : (handleConfigMessage node .clearRequest seqNum).Within beyond payload ↔
      17 ≤ payload.length := by
    simp only [handleConfigMessage, bcmpProcessClearRequestMessage, within_bind, within_ite]
    simp only [within_byteField, within_sourceField, run_byteField, within_pure, implies_true,
      and_true]
    omega
  refine ⟨fun h => hwithin.mp h.within, fun h => ⟨hwithin.mpr h, ?_, False.elim⟩⟩
  simp only [handled, handleConfigMessage, bcmpProcessClearRequestMessage, run_bind, run_byteField,
    run_sourceField]
  split
  · rename_i hpartition
    simpa using hpartition
  · simp

theorem clearResponse_trusts_iff : HandlerTrusts node .clearResponse seqNum beyond payload ↔
    Trustworthy node.cbor node.configs .clearResponse payload := by
  have hwithin : (handleConfigMessage node .clearResponse seqNum).Within beyond payload ↔
      18 ≤ payload.length := by
    simp only [handleConfigMessage, bcmpProcessClearResponseMessage, within_bind, within_byteField,
      run_byteField, within_pure, and_true]
    omega
  refine ⟨fun h => hwithin.mp h.within, fun h => ⟨hwithin.mpr h, ?_, False.elim⟩⟩
  simp [handled, handleConfigMessage, bcmpProcessClearResponseMessage]

/-- A walk that has memory for every key needs the entries. -/
theorem entriesIn_of_within {n key : Nat} (hkey : key ≤ payload.length)
    (h : (readKeyData (List.replicate n true) key).Within beyond payload) :
    EntriesIn n (payload.drop key) := by
  induction n generalizing key with
  | zero => trivial
  | succ n ih =>
    rw [List.replicate_succ, readKeyData, within_bind, within_readAt, run_readAt] at h
    obtain ⟨hlt, h⟩ := h
    have hcell : payload.getD key (beyond key) = payload[key] := by simp [hlt]
    rw [hcell, if_pos rfl, within_bind, within_readRange_iff, run_readRange, within_bind] at h
    obtain ⟨hrange, hrest, -⟩ := h
    dsimp only at hrange hrest
    rw [List.drop_eq_getElem_cons hlt, EntriesIn, List.length_drop, List.drop_drop]
    have hstep : stepKeyData key (payload[key].toNat + statusKeyDataSize) =
        key + 1 + payload[key].toNat := by
      simp only [stepKeyData, statusKeyDataSize]
      omega
    rw [hstep] at hrest
    have hroom : key + 1 + payload[key].toNat ≤ payload.length := by omega
    exact ⟨by omega, ih hroom hrest⟩

/-- No walk needs more. -/
theorem within_readKeyData {n key : Nat} (h : EntriesIn n (payload.drop key)) {allocs : List Bool}
    (hrounds : allocs.length ≤ n) : (readKeyData allocs key).Within beyond payload := by
  induction allocs generalizing n key with
  | nil => exact within_pure _
  | cons alloc allocs ih =>
    obtain ⟨n, rfl⟩ : ∃ k, n = k + 1 := ⟨n - 1, by simp at hrounds; omega⟩
    by_cases hlt : key < payload.length
    · have hentries := h
      rw [List.drop_eq_getElem_cons hlt, EntriesIn, List.length_drop, List.drop_drop] at hentries
      obtain ⟨hlength, hrest⟩ := hentries
      have hcell : payload.getD key (beyond key) = payload[key] := by simp [hlt]
      refine within_bind.mpr ⟨within_readAt.mpr hlt, ?_⟩
      rw [run_readAt, hcell]
      cases alloc with
      | false =>
        rw [if_neg (by decide)]
        exact ih h (by simp at hrounds; omega)
      | true =>
        have hstep : stepKeyData key (payload[key].toNat + statusKeyDataSize) =
            key + 1 + payload[key].toNat := by
          simp only [stepKeyData, statusKeyDataSize]
          omega
        rw [if_pos rfl]
        dsimp only
        refine within_bind.mpr ⟨within_readRange (by omega), within_bind.mpr ⟨?_, within_pure _⟩⟩
        rw [run_readRange, hstep]
        exact ih hrest (by simpa using hrounds)
    · rw [List.drop_eq_nil_of_le (by omega)] at h
      exact h.elim

theorem statusResponse_trusts (h : Trustworthy node.cbor node.configs .statusResponse payload) :
    HandlerTrusts node .statusResponse seqNum beyond payload := by
  obtain ⟨hsize, hentries⟩ := h
  refine ⟨?_, ?_, fun hcut => absurd hentries hcut⟩
  · refine within_bind.mpr ⟨within_bind.mpr ⟨within_readAt.mpr (by omega), ?_⟩, within_pure _⟩
    rw [run_readAt_byteAt]
    refine within_readKeyData hentries ?_
    rw [List.length_map, List.length_range, byteAt_eq_byteOf (by omega)]
  · simp [handled, handleConfigMessage, processStatusResponse]

/-- `bm_malloc` does not fail. -/
def MemoryFor (node : ConfigNode) : Prop := ∀ i, (node.alloc i).isSome = true

theorem statusResponse_trustworthy (hmemory : MemoryFor node)
    (h : HandlerTrusts node .statusResponse seqNum beyond payload) :
    Trustworthy node.cbor node.configs .statusResponse payload := by
  obtain ⟨hwithin, -⟩ := within_bind.mp h.within
  obtain ⟨hsize, hwalk⟩ := within_bind.mp hwithin
  have hlt := within_readAt.mp hsize
  rw [run_readAt_byteAt] at hwalk
  have hallocs : (List.range (byteAt beyond payload 18).toNat).map
      (fun i => (node.alloc i).isSome) = List.replicate (byteOf payload 18) true :=
    List.eq_replicate_iff.mpr ⟨by simp [byteAt_eq_byteOf hlt], by simpa using fun i _ => hmemory i⟩
  rw [hallocs] at hwalk
  exact ⟨hlt, entriesIn_of_within hlt hwalk⟩

theorem deleteResponse_trusts (h : Trustworthy node.cbor node.configs .deleteResponse payload) :
    HandlerTrusts node .deleteResponse seqNum beyond payload := by
  have hroom : 19 + byteOf payload 18 ≤ payload.length := h
  refine ⟨?_, ?_, fun hcut => absurd hcut (Nat.not_lt.mpr hroom)⟩
  · simp only [handleConfigMessage, bcmpProcessDelResponseMessage, within_bind, within_byteField,
      run_byteField, byteAt_eq_byteOf (by omega : 18 < payload.length)]
    refine ⟨by omega, ?_⟩
    split
    · exact within_pure _
    · exact within_bind.mpr ⟨within_readRange hroom, within_pure _⟩
  · simp only [handled, handleConfigMessage, bcmpProcessDelResponseMessage, run_bind]
    split <;> simp

theorem MemoryFor.malloc (hmemory : MemoryFor node) (i size : Nat) :
    ∃ b, node.malloc i size = some b := by
  obtain ⟨contents, hcontents⟩ := Option.isSome_iff_exists.mp (hmemory i)
  exact ⟨_, by rw [ConfigNode.malloc, hcontents, Option.map_some]⟩

theorem deleteResponse_trustworthy (hmemory : MemoryFor node)
    (h : HandlerTrusts node .deleteResponse seqNum beyond payload) :
    Trustworthy node.cbor node.configs .deleteResponse payload := by
  have hwithin := h.within
  simp only [handleConfigMessage, bcmpProcessDelResponseMessage, within_bind, within_byteField,
    run_byteField] at hwithin
  obtain ⟨hlt, hkey⟩ := hwithin
  obtain ⟨b, hb⟩ := hmemory.malloc 0 ((byteAt beyond payload 18).toNat + 1)
  rw [hb, byteAt_eq_byteOf hlt] at hkey
  obtain ⟨hrange, -⟩ := within_bind.mp hkey
  have hroom := within_readRange_iff.mp hrange
  change 19 + byteOf payload 18 ≤ payload.length
  omega

theorem deleteRequest_indexed : (handled node .deleteRequest seqNum beyond payload).indexed =
    [(byteAt beyond payload 16).toNat] := by
  simp only [handled, handleConfigMessage, bcmpProcessDelRequestMessage, run_bind, run_byteField,
    run_sourceField, run_pure]

theorem deleteRequest_trusts (h : Trustworthy node.cbor node.configs .deleteRequest payload) :
    HandlerTrusts node .deleteRequest seqNum beyond payload := by
  obtain ⟨hroom, hpartition⟩ := h
  refine ⟨?_, ?_, fun hcut => absurd hcut (Nat.not_lt.mpr hroom)⟩
  · have hkeyLen : (byteAt beyond payload 17).toNat = byteOf payload 17 :=
      byteAt_eq_byteOf (by omega)
    have hremove := run_removeKey beyond payload 18 (node.configs (byteOf payload 16))
      (hkeyLen ▸ byteAt_le_addressSpace beyond payload 17)
    simp only [handleConfigMessage, bcmpProcessDelRequestMessage, within_bind, within_byteField,
      run_byteField, byteAt_eq_byteOf (by omega : 16 < payload.length), hkeyLen,
      within_removeKey_iff, hremove,
      within_sourceField, run_sourceField, within_pure, and_true]
    refine ⟨by omega, by omega, within_findKeyIdx hroom, by omega, ?_⟩
    unfold bcmpConfigSendDelKeyResponse
    split
    · exact within_pure _
    · exact within_bind.mpr ⟨within_readRange hroom, within_pure _⟩
  · rw [deleteRequest_indexed, byteAt_eq_byteOf (by omega)]
    simpa using hpartition

theorem deleteRequest_trustworthy (hmemory : MemoryFor node)
    (h : HandlerTrusts node .deleteRequest seqNum beyond payload) :
    Trustworthy node.cbor node.configs .deleteRequest payload := by
  have hwithin := h.within
  have hindexed := h.indexed
  have hremove := fun info => run_removeKey beyond payload 18 info
    (byteAt_le_addressSpace beyond payload 17)
  simp only [handleConfigMessage, bcmpProcessDelRequestMessage, within_bind, within_byteField,
    run_byteField, hremove, run_sourceField] at hwithin
  obtain ⟨-, hlt, -, -, hkey, -⟩ := hwithin
  obtain ⟨b, hb⟩ := hmemory.malloc 0 (19 + (byteAt beyond payload 17).toNat)
  rw [bcmpConfigSendDelKeyResponse, hb, byteAt_eq_byteOf hlt] at hkey
  have hrange := within_readRange_iff.mp (within_bind.mp hkey).1
  rw [deleteRequest_indexed, byteAt_eq_byteOf (by omega)] at hindexed
  exact ⟨by omega, by simpa using hindexed⟩

/-- What is found for a key in a message. -/
theorem getConfigCbor_charsAt {p : ConfigPartition} {off keyLen valueLen : Nat}
    (hsize : payload.length < addressSpace)
    (h : off + keyLen ≤ payload.length ∨ KeyDecided p (payload.drop off) keyLen) :
    getConfigCbor node.cbor p (charsAt beyond payload off) keyLen valueLen =
      getConfigCbor node.cbor p (payload.drop off) keyLen valueLen := by
  obtain ⟨rest, hwindow⟩ := window_prefix beyond payload
    (by omega : payload.length ≤ off + addressSpace)
  rw [charsAt, hwindow]
  refine getConfigCbor_append (h.imp_left fun hroom => ?_) rest
  rw [List.length_drop]
  omega

variable (seqNum beyond) in
/-- What the handler of a get message does if it has memory. -/
theorem handled_get {b : List UInt8} (hb : node.malloc 0 maxConfigBufferSizeBytes = some b)
    (h17 : 17 < payload.length) :
    (handled node .get seqNum beyond payload).indexed = [byteOf payload 16] ∧
    ((handled node .get seqNum beyond payload).effect node.configs = .none node.configs ↔
      (handled node .get seqNum beyond payload).reply = none) ∧
    ∃ source, (handled node .get seqNum beyond payload).reply =
      (getConfigCbor node.cbor (node.configs (byteOf payload 16)).ramBuffer
        (charsAt beyond payload 18) (byteOf payload 17) maxConfigBufferSizeBytes).bind
          (bcmpConfigSendValue node seqNum.toUInt16 1 source (byteOf payload 16)) := by
  simp only [handled, handleConfigMessage, bcmpConfigProcessConfigGetMsg, hb, run_bind,
    run_byteField, run_getConfigCbor, byteAt_eq_byteOf (by omega : 16 < payload.length),
    byteAt_eq_byteOf h17]
  cases getConfigCbor node.cbor (node.configs (byteOf payload 16)).ramBuffer
    (charsAt beyond payload 18) (byteOf payload 17) maxConfigBufferSizeBytes with
  | none => exact ⟨rfl, iff_of_true rfl rfl, 0, rfl⟩
  | some buffer =>
    simp only [run_bind, run_sourceField, run_pure]
    refine ⟨trivial, ?_, _, rfl⟩
    simp [ConfigOutcome.effect, Effect.none, ConfigOutcome.configs]

theorem within_get_iff {b : List UInt8} (hb : node.malloc 0 maxConfigBufferSizeBytes = some b) :
    (handleConfigMessage node .get seqNum).Within beyond payload ↔ 18 ≤ payload.length ∧
      (maxKeyLenBytes < byteOf payload 17 ∨
        (Traced.findKeyIdx (node.configs (byteOf payload 16)).ramBuffer 18
          (byteOf payload 17)).Within beyond payload) := by
  simp only [handleConfigMessage, bcmpConfigProcessConfigGetMsg, hb, within_bind, within_byteField,
    run_byteField, within_getConfigCbor_iff, run_getConfigCbor]
  by_cases h17 : 17 < payload.length
  · rw [byteAt_eq_byteOf h17, byteAt_eq_byteOf (by omega : 16 < payload.length)]
    constructor
    · rintro ⟨-, -, hfind, -⟩
      exact ⟨h17, hfind⟩
    · rintro ⟨-, hfind⟩
      refine ⟨by omega, h17, hfind, ?_⟩
      split
      · exact within_pure _
      · exact within_bind.mpr ⟨within_sourceField.mpr (by omega), within_pure _⟩
  · constructor
    · rintro ⟨-, h, -⟩
      exact absurd h h17
    · rintro ⟨h, -⟩
      omega

theorem get_trusts (hsize : payload.length < addressSpace)
    (h : Trustworthy node.cbor node.configs .get payload) :
    HandlerTrusts node .get seqNum beyond payload := by
  obtain ⟨hroom, hpartition, hkey⟩ := h
  cases hb : node.malloc 0 maxConfigBufferSizeBytes with
  | none =>
    have hhandle : handleConfigMessage node .get seqNum = pure {} := by
      rw [handleConfigMessage, bcmpConfigProcessConfigGetMsg, hb]
    have hhandled : handled node .get seqNum beyond payload = {} := by
      rw [handled, hhandle, run_pure]
    refine ⟨?_, ?_, fun _ => ?_⟩
    · rw [hhandle]
      exact within_pure _
    · rw [hhandled]
      simp
    · rw [hhandled]
      rfl
  | some b =>
    obtain ⟨hindexed, heffect, source, hreply⟩ :=
      handled_get seqNum beyond hb (by omega : 17 < payload.length)
    refine ⟨(within_get_iff hb).mpr ⟨hroom, ?_⟩, ?_, fun hcut => ?_⟩
    · by_cases hlen : maxKeyLenBytes < byteOf payload 17
      · exact .inl hlen
      · refine .inr (within_findKeyIdx_iff.mpr (.inr ?_))
        exact (hkey (by omega)).imp_right And.left
    · rw [hindexed]
      simpa using hpartition
    · -- a key that is cut has no value
      have hcut' : payload.length < 18 + byteOf payload 17 := hcut
      rw [heffect, hreply]
      by_cases hlen : byteOf payload 17 ≤ maxKeyLenBytes
      · obtain ⟨hdecided, hnone⟩ := (hkey hlen).resolve_left (by omega)
        rw [getConfigCbor_charsAt hsize (.inr hdecided), hnone]
        rfl
      · rw [getConfigCbor, prepareCborParser, if_pos (by omega)]
        rfl

theorem get_trustworthy (hmemory : MemoryFor node) (hsize : payload.length < addressSpace)
    (h : HandlerTrusts node .get seqNum beyond payload) :
    Trustworthy node.cbor node.configs .get payload := by
  obtain ⟨b, hb⟩ := hmemory.malloc 0 maxConfigBufferSizeBytes
  obtain ⟨hroom, hfind⟩ := (within_get_iff hb).mp h.within
  obtain ⟨hindexed, heffect, source, hreply⟩ :=
    handled_get seqNum beyond hb (by omega : 17 < payload.length)
  have hpartition := h.indexed
  rw [hindexed] at hpartition
  refine ⟨hroom, by simpa using hpartition, fun hlen => ?_⟩
  by_cases hthere : 18 + byteOf payload 17 ≤ payload.length
  · exact .inl hthere
  have hdecided : KeyDecided (node.configs (byteOf payload 16)).ramBuffer (payload.drop 18)
      (byteOf payload 17) := by
    have hwithin := within_findKeyIdx_iff.mp (hfind.resolve_left (by omega))
    rcases hwithin with hzero | hroom' | hdecided
    · omega
    · omega
    · exact hdecided
  refine .inr ⟨hdecided, ?_⟩
  have hnone := heffect.mp (h.cut (by simpa [LengthsExceed] using Nat.lt_of_not_le hthere))
  rw [hreply, getConfigCbor_charsAt hsize (.inr hdecided)] at hnone
  cases hvalue : getConfigCbor node.cbor (node.configs (byteOf payload 16)).ramBuffer
    (payload.drop 18) (byteOf payload 17) maxConfigBufferSizeBytes with
  | none => rfl
  | some buffer =>
    obtain ⟨b', hb'⟩ := hmemory.malloc 1 (21 + buffer.length)
    rw [hvalue, Option.bind_some, bcmpConfigSendValue, hb'] at hnone
    cases hnone

theorem keyAppended_charsAt {p : ConfigPartition} {off keyLen : Nat}
    (hsize : payload.length < addressSpace) (h : off + keyLen ≤ payload.length) :
    KeyAppended p (charsAt beyond payload off) keyLen ↔
      KeyAppended p (payload.drop off) keyLen := by
  obtain ⟨rest, hwindow⟩ := window_prefix beyond payload
    (by omega : payload.length ≤ off + addressSpace)
  rw [charsAt, hwindow]
  exact keyAppended_append (by rw [List.length_drop]; omega) rest

/-- The bytes that `set_config_cbor` needs of a message. -/
theorem within_setConfigCbor_message {info : ConfigInfo} {keyLen dataLength : Nat}
    (hsize : payload.length < addressSpace)
    (hlength : ¬ (dataLength > maxConfigBufferSizeBytes ∨ dataLength = 0)) :
    (Traced.setConfigCbor node.cbor info 22 keyLen (22 + keyLen) dataLength).Within beyond payload ↔
      (keyLen ≤ maxKeyLenBytes → 22 + keyLen + dataLength ≤ payload.length ∧
        (node.cbor.parserInit ((payload.drop (22 + keyLen)).take dataLength) = true →
          node.cbor.type ((payload.drop (22 + keyLen)).take dataLength) ≠ .invalid →
            KeyAppended info.ramBuffer (payload.drop 22) keyLen → 0 ∈ payload.drop 22)) := by
  rw [within_setConfigCbor_iff, not_lt]
  refine imp_congr_right fun hlen => ?_
  rw [imp_iff_right hlength]
  refine and_congr_right fun hroom => ?_
  rw [window_eq_slice _ _ hroom, within_slotForKey_iff (by omega) hsize (by omega),
    keyAppended_charsAt hsize (by omega)]

theorem within_set_iff (hsize : payload.length < addressSpace) :
    (handleConfigMessage node .set seqNum).Within beyond payload ↔ 22 ≤ payload.length ∧
      (¬ (fieldAt payload 18 4 > maxConfigBufferSizeBytes ∨ fieldAt payload 18 4 = 0) →
        (Traced.setConfigCbor node.cbor (node.configs (byteOf payload 16)) 22 (byteOf payload 17)
          (22 + byteOf payload 17) (fieldAt payload 18 4)).Within beyond payload) := by
  simp only [handleConfigMessage, bcmpConfigProcessConfigSetMsg, within_bind,
    within_dataLengthField, run_dataLengthField]
  refine and_congr_right fun hroom => ?_
  rw [leNat_window_eq_fieldAt hroom]
  by_cases hlength : fieldAt payload 18 4 > maxConfigBufferSizeBytes ∨ fieldAt payload 18 4 = 0
  · rw [if_pos hlength]
    exact iff_of_true (within_pure _) fun h => absurd hlength h
  rw [if_neg hlength, imp_iff_right hlength]
  simp only [within_bind, within_byteField, run_byteField,
    byteAt_eq_byteOf (by omega : 16 < payload.length),
    byteAt_eq_byteOf (by omega : 17 < payload.length), run_setConfigCbor]
  constructor
  · rintro ⟨-, -, hset, -⟩
    exact hset
  · intro hset
    refine ⟨by omega, by omega, hset, ?_⟩
    split
    · rename_i hok
      -- the data was looked at before it is copied
      have hlen : byteOf payload 17 ≤ maxKeyLenBytes := by
        by_contra hlong
        rw [setConfigCbor, if_pos (by omega)] at hok
        simp at hok
      have hdata := ((within_setConfigCbor_message hsize hlength).mp hset hlen).1
      refine within_bind.mpr ⟨within_sourceField.mpr (by omega), within_bind.mpr ⟨?_,
        within_pure _⟩⟩
      rw [run_sourceField]
      exact within_readRange hdata
    · exact within_pure _

variable (seqNum beyond) in
/-- A set message whose data has no length that can be stored does nothing. -/
theorem handled_set_refused (h22 : 22 ≤ payload.length)
    (hlength : fieldAt payload 18 4 > maxConfigBufferSizeBytes ∨ fieldAt payload 18 4 = 0) :
    handled node .set seqNum beyond payload = {} := by
  simp only [handled, handleConfigMessage, bcmpConfigProcessConfigSetMsg, run_bind,
    run_dataLengthField]
  rw [leNat_window_eq_fieldAt h22, if_pos hlength, run_pure]

variable (seqNum beyond) in
/-- The partition of any other set message is indexed, and a key that is too long is refused. -/
theorem handled_set (h22 : 22 ≤ payload.length)
    (hlength : ¬ (fieldAt payload 18 4 > maxConfigBufferSizeBytes ∨ fieldAt payload 18 4 = 0)) :
    (handled node .set seqNum beyond payload).indexed = [byteOf payload 16] ∧
    (maxKeyLenBytes < byteOf payload 17 →
      (handled node .set seqNum beyond payload).effect node.configs = .none node.configs) := by
  simp only [handled, handleConfigMessage, bcmpConfigProcessConfigSetMsg, run_bind,
    run_dataLengthField]
  rw [leNat_window_eq_fieldAt h22, if_neg hlength]
  simp only [run_bind, run_byteField, byteAt_eq_byteOf (by omega : 16 < payload.length),
    byteAt_eq_byteOf (by omega : 17 < payload.length), run_setConfigCbor]
  refine ⟨?_, fun hlong => ?_⟩
  · split <;> simp
  · rw [setConfigCbor, if_pos hlong, if_neg (by simp), run_pure]
    simp [ConfigOutcome.effect, Effect.none, ConfigOutcome.configs]

theorem set_trusts_iff (hsize : payload.length < addressSpace) :
    HandlerTrusts node .set seqNum beyond payload ↔
      Trustworthy node.cbor node.configs .set payload := by
  constructor
  · intro h
    obtain ⟨h22, hset⟩ := (within_set_iff hsize).mp h.within
    refine ⟨h22, fun hpos hle => ?_⟩
    have hlength : ¬ (fieldAt payload 18 4 > maxConfigBufferSizeBytes ∨ fieldAt payload 18 4 = 0) :=
      by omega
    have hindexed := h.indexed
    rw [(handled_set seqNum beyond h22 hlength).1] at hindexed
    exact ⟨by simpa using hindexed, (within_setConfigCbor_message hsize hlength).mp (hset hlength)⟩
  · rintro ⟨h22, htrusted⟩
    by_cases hlength : fieldAt payload 18 4 > maxConfigBufferSizeBytes ∨ fieldAt payload 18 4 = 0
    · have hhandled : handled node .set seqNum beyond payload = {} :=
        handled_set_refused seqNum beyond h22 hlength
      refine ⟨(within_set_iff hsize).mpr ⟨h22, fun h => absurd hlength h⟩, ?_, fun _ => ?_⟩
      · rw [hhandled]
        simp
      · rw [hhandled]
        rfl
    · obtain ⟨hpartition, hmessage⟩ := htrusted (by omega) (by omega)
      have hset : (handled node .set seqNum beyond payload).indexed = [byteOf payload 16] ∧ _ :=
        handled_set seqNum beyond h22 hlength
      obtain ⟨hindexed, hlong⟩ := hset
      refine ⟨(within_set_iff hsize).mpr ⟨h22, fun _ => ?_⟩, ?_, fun hcut => hlong ?_⟩
      · exact (within_setConfigCbor_message hsize hlength).mpr hmessage
      · rw [hindexed]
        simpa using hpartition
      · -- lengths that can be stored are there
        by_contra hshort
        have hroom := (hmessage (by omega)).1
        exact absurd hcut (Nat.not_lt.mpr hroom)

/-- What is trustworthy is handled well, whatever `bm_malloc` returns. -/
theorem handler_trusts {m : ConfigMessage} (hsize : payload.length < addressSpace)
    (h : Trustworthy node.cbor node.configs m payload) :
    HandlerTrusts node m seqNum beyond payload := by
  cases m with
  | get => exact get_trusts hsize h
  | set => exact (set_trusts_iff hsize).mpr h
  | commit => exact commit_trusts_iff.mpr h
  | statusRequest => exact statusRequest_trusts_iff.mpr h
  | statusResponse => exact statusResponse_trusts h
  | value => exact value_trusts_iff.mpr h
  | deleteRequest => exact deleteRequest_trusts h
  | deleteResponse => exact deleteResponse_trusts h
  | clearRequest => exact clearRequest_trusts_iff.mpr h
  | clearResponse => exact clearResponse_trusts_iff.mpr h

/-- And only that, if there is memory. -/
theorem handler_trustworthy {m : ConfigMessage} (hmemory : MemoryFor node)
    (hsize : payload.length < addressSpace) (h : HandlerTrusts node m seqNum beyond payload) :
    Trustworthy node.cbor node.configs m payload := by
  cases m with
  | get => exact get_trustworthy hmemory hsize h
  | set => exact (set_trusts_iff hsize).mp h
  | commit => exact commit_trusts_iff.mp h
  | statusRequest => exact statusRequest_trusts_iff.mp h
  | statusResponse => exact statusResponse_trustworthy hmemory h
  | value => exact value_trusts_iff.mp h
  | deleteRequest => exact deleteRequest_trustworthy hmemory h
  | deleteResponse => exact deleteResponse_trustworthy hmemory h
  | clearRequest => exact clearRequest_trusts_iff.mp h
  | clearResponse => exact clearResponse_trusts_iff.mp h

end Handlers

/-! ## Messages for this node -/

section Messages
variable {node : ConfigNode} {m : ConfigMessage} {seqNum : UInt32} {beyond : Nat → UInt8}
  {payload : List UInt8}

/-- The node that a message is for, as the dispatcher finds it. -/
def AddressedTo (nodeId : UInt64) (beyond : Nat → UInt8) (payload : List UInt8) : Prop :=
  UInt64.ofNat (leNat (window beyond payload 0 8)) = nodeId

theorem configOutcome_addressed (h : AddressedTo node.nodeId beyond payload) :
    configOutcome node m seqNum beyond payload = some (handled node m seqNum beyond payload) := by
  have hread : (readRange 0 8).run beyond payload = (window beyond payload 0 8, payload) :=
    run_readRange 0 8 payload
  rw [configOutcome, Traced.bcmpProcessConfigMessage, run_bind, hread]
  dsimp only
  rw [if_neg (by simpa [AddressedTo] using h), run_bind, run_pure, handled]

theorem within_addressed_iff (h : AddressedTo node.nodeId beyond payload) :
    (Traced.bcmpProcessConfigMessage node m seqNum).Within beyond payload ↔
      8 ≤ payload.length ∧ (handleConfigMessage node m seqNum).Within beyond payload := by
  have hread : (readRange 0 8).run beyond payload = (window beyond payload 0 8, payload) :=
    run_readRange 0 8 payload
  rw [Traced.bcmpProcessConfigMessage, within_bind, hread, within_readRange_iff]
  dsimp only
  rw [if_neg (by simpa [AddressedTo] using h), within_bind]
  simp [within_pure]

theorem Trustworthy.header {cbor : TinyCbor} {configs : Nat → ConfigInfo}
    (h : Trustworthy cbor configs m payload) : 8 ≤ payload.length := by
  cases m <;> simp only [Trustworthy] at h <;> omega

/-- All that a handler does comes from the bytes of the message and the elements it indexes. -/
theorem configOutcome_determined (haddressed : AddressedTo node.nodeId beyond payload)
    (hwithin : (Traced.bcmpProcessConfigMessage node m seqNum).Within beyond payload)
    (beyond' : Nat → UInt8) {configs' : Nat → ConfigInfo}
    (hconfigs : ∀ i ∈ (handled node m seqNum beyond payload).indexed,
      configs' i = node.configs i) :
    configOutcome { node with configs := configs' } m seqNum beyond' payload =
      configOutcome node m seqNum beyond payload := by
  obtain ⟨hheader, hhandler⟩ := (within_addressed_iff haddressed).mp hwithin
  have haddressed' : AddressedTo node.nodeId beyond' payload := by
    rw [AddressedTo, window_eq_slice _ _ (by omega)] at haddressed ⊢
    exact haddressed
  have hrun := hhandler.run_eq beyond'
  have hhandled : handled { node with configs := configs' } m seqNum beyond' payload =
      handled node m seqNum beyond payload := by
    rw [handled, handled, handle_congr ?_, hrun]
    rw [hrun]
    exact hconfigs
  have houtcome : configOutcome { node with configs := configs' } m seqNum beyond' payload = _ :=
    configOutcome_addressed haddressed'
  rw [houtcome, hhandled, configOutcome_addressed haddressed]

/-- The dispatcher adds nothing to what the handler trusts. -/
theorem trustsReceived_iff (haddressed : AddressedTo node.nodeId beyond payload) :
    TrustsReceived node m seqNum beyond payload ↔
      8 ≤ payload.length ∧ HandlerTrusts node m seqNum beyond payload := by
  have houtcome : configOutcome node m seqNum beyond payload = _ :=
    configOutcome_addressed haddressed
  constructor
  · intro h
    obtain ⟨hheader, hwithin⟩ := (within_addressed_iff haddressed).mp h.within
    exact ⟨hheader, hwithin, h.indexed _ houtcome, fun hcut => h.cut hcut _ houtcome⟩
  · rintro ⟨hheader, hhandler⟩
    have hwithin : (Traced.bcmpProcessConfigMessage node m seqNum).Within beyond payload :=
      (within_addressed_iff haddressed).mpr ⟨hheader, hhandler.within⟩
    refine ⟨hwithin, ?_, fun beyond' configs' hconfigs => ?_, ?_⟩
    · intro o ho
      rw [houtcome] at ho
      exact Option.some.inj ho ▸ hhandler.indexed
    · rw [configOutcome_determined haddressed hwithin beyond' fun i hi =>
        hconfigs i (hhandler.indexed i hi), houtcome]
      exact congrArg some (effect_congr hconfigs _)
    · intro hcut o ho
      rw [houtcome] at ho
      exact Option.some.inj ho ▸ hhandler.cut hcut

end Messages

/-- For a message to this node, whatever memory there is and if the flash can be written or not: the
handler trusts received bytes only if and only if the message is trustworthy. -/
theorem trusts_received_iff {node : ConfigNode} {m : ConfigMessage} {seqNum : UInt32}
    {beyond : Nat → UInt8} {payload : List UInt8}
    (haddressed : AddressedTo node.nodeId beyond payload) (hsize : payload.length < addressSpace) :
    (∀ alloc written,
      TrustsReceived { node with alloc, written } m seqNum beyond payload) ↔
      Trustworthy node.cbor node.configs m payload := by
  constructor
  · intro h
    let node' : ConfigNode := { node with alloc := fun _ => some fun _ => 0, written := true }
    have haddressed' : AddressedTo node'.nodeId beyond payload := haddressed
    have htrusts := (trustsReceived_iff haddressed').mp (h _ _)
    have htrustworthy : Trustworthy node'.cbor node'.configs m payload :=
      handler_trustworthy (fun _ => rfl) hsize htrusts.2
    exact htrustworthy
  · intro h alloc written
    let node' : ConfigNode := { node with alloc, written }
    have haddressed' : AddressedTo node'.nodeId beyond payload := haddressed
    have htrusts : HandlerTrusts node' m seqNum beyond payload := handler_trusts hsize h
    exact (trustsReceived_iff haddressed').mpr ⟨h.header, htrusts⟩

/-- Node 2 asks node 1 for the value of a key of its system partition. -/
def getRequest : List UInt8 := configHeader 1 2 ++ [1, 3] ++ [0x6b, 0x65, 0x79]

theorem trusts_received_get : Trustworthy tinyCbor emptyNode.configs .get getRequest ∧
    ∀ alloc written,
      TrustsReceived { emptyNode with alloc, written } .get 0 (fun _ => 0) getRequest := by
  have htrustworthy : Trustworthy tinyCbor emptyNode.configs .get getRequest :=
    ⟨by decide, by decide, fun _ => .inl (by decide)⟩
  have haddressed : AddressedTo emptyNode.nodeId (fun _ => 0) getRequest := by
    simp only [AddressedTo]
    decide
  exact ⟨htrustworthy, (trusts_received_iff haddressed (by decide)).mpr htrustworthy⟩

/-- Node 2 asks node 1 to commit a partition that there is not. -/
def commitBehind : List UInt8 := configHeader 1 2 ++ [3]

/-- Node 2 asks node 1 to delete a key of four letters that it does not send. -/
def deleteRequestCut : List UInt8 := configHeader 1 2 ++ [0, 4]

def replyTo (m : ConfigMessage) (beyond : Nat → UInt8) (payload : List UInt8) :
    Option (List UInt8) :=
  (configOutcome { emptyNode with alloc := fun _ => some fun _ => 0 } m 0 beyond payload).bind
    fun o => o.reply.map (·.payload)

/-- `CONFIGS` is indexed behind its end, and the reply discloses what lies behind a message. -/
theorem received_not_trusted :
    AddressedTo emptyNode.nodeId (fun _ => 0) commitBehind ∧
      ¬ TrustsReceived emptyNode .commit 0 (fun _ => 0) commitBehind ∧
      replyTo .deleteRequest (fun _ => 7) deleteRequestCut =
        some (configHeader 2 1 ++ [0, 0, 4, 7, 7, 7, 7]) := by
  refine ⟨?_, fun h => ?_, by decide +kernel⟩
  · simp only [AddressedTo]
    decide
  · have houtcome : (configOutcome emptyNode .commit 0 (fun _ => 0) commitBehind).map (·.indexed) =
        some [3] := by decide +kernel
    obtain ⟨o, ho, hindexed⟩ := Option.map_eq_some_iff.mp houtcome
    have hlt := h.indexed o ho 3 (by simp [hindexed])
    exact absurd hlt (by decide)

end BmCore.Bcmp
