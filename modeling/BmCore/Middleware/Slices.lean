import BmCore.Library.StringReads
import BmCore.Middleware.PubSub

/-!
# Received messages

`bm_handle_msg` on a buffer of any size: which bytes it reads, and which parts of the buffer it
hands to the callbacks. It takes the length of the topic from the message and compares neither that
nor its own header with the size.
-/
namespace BmCore.Middleware
open Library

/-! ## Patterns -/

section Patterns
variable (off strLen : Nat) (pattern : List UInt8)

/-- `pattern[j] == '?' || str[i] == pattern[j]`, with the string at an offset of the buffer. -/
def charFitsAt (i j : Nat) : Access UInt8 Bool :=
  if j < pattern.length then
    if pattern.getD j 0 = 0x3F then pure true
    else do
      let c ← Access.readAt (off + i)
      pure (c == pattern.getD j 0)
  else pure false

/-- The first loop of `bm_wildcard_match` on a string in a buffer. -/
def wildcardLoopAt : Nat → (i j matchIdx : Nat) → (starIdx : Option Nat) → Access UInt8 Nat
  | 0, _, j, _, _ => pure j
  | fuel + 1, i, j, matchIdx, starIdx =>
    if i < strLen then do
      let fits ← charFitsAt off pattern i j
      if fits then wildcardLoopAt fuel (i + 1) (j + 1) matchIdx starIdx
      else if j < pattern.length ∧ pattern.getD j 0 = 0x2A then
        wildcardLoopAt fuel i (j + 1) i (some j)
      else match starIdx with
        | some star => wildcardLoopAt fuel (matchIdx + 1) (star + 1) (matchIdx + 1) starIdx
        | none => pure j
    else pure j

/-- `bm_wildcard_match` on a string in a buffer -/
def bmWildcardMatchAt : Access UInt8 Bool := do
  let j ← wildcardLoopAt off strLen pattern ((strLen + 1) * (pattern.length + 1)) 0 0 0 none
  pure ((pattern.drop j).dropWhile (· == 0x2A)).isEmpty

end Patterns

section Looks
variable (str pattern : List UInt8)

/-- The bytes of the string that the loop compares. -/
def wildcardLooks : Nat → (i j matchIdx : Nat) → (starIdx : Option Nat) → List Nat
  | 0, _, _, _, _ => []
  | fuel + 1, i, j, matchIdx, starIdx =>
    if i < str.length then
      (if j < pattern.length ∧ pattern.getD j 0 ≠ 0x3F then [i] else []) ++
      if j < pattern.length ∧ (pattern.getD j 0 = 0x3F ∨ str.getD i 0 = pattern.getD j 0) then
        wildcardLooks fuel (i + 1) (j + 1) matchIdx starIdx
      else if j < pattern.length ∧ pattern.getD j 0 = 0x2A then
        wildcardLooks fuel i (j + 1) i (some j)
      else match starIdx with
        | some star => wildcardLooks fuel (matchIdx + 1) (star + 1) (matchIdx + 1) starIdx
        | none => []
    else []

/-- The bytes of the string that `bm_wildcard_match` compares. -/
def bmWildcardLooks : List Nat :=
  wildcardLooks str pattern ((str.length + 1) * (pattern.length + 1)) 0 0 0 none

end Looks

section Patterns
variable {beyond : Nat → UInt8} {buf : List UInt8}

theorem run_charFitsAt (off : Nat) (pattern : List UInt8) (i j : Nat) :
    (charFitsAt off pattern i j).run beyond buf = (decide (j < pattern.length ∧
      (pattern.getD j 0 = 0x3F ∨ byteAt beyond buf (off + i) = pattern.getD j 0)), buf) := by
  unfold charFitsAt
  generalize pattern.getD j 0 = c
  by_cases hj : j < pattern.length
  · by_cases hany : c = 0x3F
    · simp [hj, hany]
    · rw [if_pos hj, if_neg hany, Access.run_bind, Access.run_readAt_byteAt]
      simp [hj, hany, beq_eq_decide]
  · simp [hj]

theorem offsets_charFitsAt (off : Nat) (pattern : List UInt8) (i j : Nat) :
    (charFitsAt off pattern i j).offsets beyond buf =
      if j < pattern.length ∧ pattern.getD j 0 ≠ 0x3F then [off + i] else [] := by
  unfold charFitsAt
  generalize pattern.getD j 0 = c
  by_cases hj : j < pattern.length
  · by_cases hany : c = 0x3F
    · simp [hj, hany]
    · simp [hj, hany]
  · simp [hj]

theorem getD_window {off len i : Nat} (hi : i < len) :
    (window beyond buf off len).getD i 0 = byteAt beyond buf (off + i) := by
  simp [window, hi]

/-- In a buffer the loop compares what it compares in the list of the bytes that are found. -/
theorem wildcardLoopAt_spec (off strLen : Nat) (pattern : List UInt8) (fuel i j matchIdx : Nat)
    (starIdx : Option Nat) :
    (wildcardLoopAt off strLen pattern fuel i j matchIdx starIdx).run beyond buf =
      (wildcardLoop (window beyond buf off strLen) pattern fuel i j matchIdx starIdx, buf) ∧
    (wildcardLoopAt off strLen pattern fuel i j matchIdx starIdx).offsets beyond buf =
      (wildcardLooks (window beyond buf off strLen) pattern fuel i j matchIdx starIdx).map
        (off + ·) := by
  induction fuel generalizing i j matchIdx starIdx with
  | zero => exact ⟨rfl, rfl⟩
  | succ fuel ih =>
    unfold wildcardLoopAt wildcardLoop wildcardLooks
    rw [window_length]
    by_cases hi : i < strLen
    · simp only [if_pos hi, Access.run_bind, Access.offsets_bind, run_charFitsAt,
        offsets_charFitsAt, getD_window hi, List.map_append]
      have hlook : (if j < pattern.length ∧ pattern.getD j 0 ≠ 0x3F then [off + i] else []) =
          (if j < pattern.length ∧ pattern.getD j 0 ≠ 0x3F then [i] else []).map (off + ·) := by
        split <;> rfl
      rw [hlook]
      by_cases hfits : j < pattern.length ∧
          (pattern.getD j 0 = 0x3F ∨ byteAt beyond buf (off + i) = pattern.getD j 0)
      · simp only [if_pos hfits, decide_eq_true hfits, if_true]
        exact ⟨(ih ..).1, congrArg _ (ih ..).2⟩
      · simp only [if_neg hfits, decide_eq_false hfits, Bool.false_eq_true, if_false]
        by_cases hstar : j < pattern.length ∧ pattern.getD j 0 = 0x2A
        · simp only [if_pos hstar]
          exact ⟨(ih ..).1, congrArg _ (ih ..).2⟩
        · simp only [if_neg hstar]
          cases starIdx with
          | none => exact ⟨rfl, rfl⟩
          | some star => exact ⟨(ih ..).1, congrArg _ (ih ..).2⟩
    · simp [hi]

theorem run_bmWildcardMatchAt (off strLen : Nat) (pattern : List UInt8) :
    (bmWildcardMatchAt off strLen pattern).run beyond buf =
      (bmWildcardMatch (window beyond buf off strLen) pattern, buf) := by
  rw [bmWildcardMatchAt, Access.run_bind, (wildcardLoopAt_spec ..).1, bmWildcardMatch,
    window_length]
  rfl

theorem offsets_bmWildcardMatchAt (off strLen : Nat) (pattern : List UInt8) :
    (bmWildcardMatchAt off strLen pattern).offsets beyond buf =
      (bmWildcardLooks (window beyond buf off strLen) pattern).map (off + ·) := by
  rw [bmWildcardMatchAt, Access.offsets_bind, (wildcardLoopAt_spec ..).2, bmWildcardLooks,
    window_length]
  exact List.append_nil _

end Patterns

/-! ## Messages -/

/-- The arguments of a callback; topic and data are offsets into the buffer. -/
structure Slices where
  nodeId : UInt64
  topic : Nat
  topicLen : UInt16
  data : Nat
  dataLen : UInt16
  type : UInt8
  version : UInt8
  deriving DecidableEq

section Functions
variable {Callback : Type} (nodeId : UInt64) (dataLen : UInt16)

/-- The arguments of one call, read from the header. -/
def argumentsAt : Access UInt8 Slices := do
  let topicLen ← Access.readAt 2
  let topicEnd ← Access.readAt 2
  let type ← Access.readAt 3
  let version ← Access.readAt 4
  pure ⟨nodeId, 5, topicLen.toUInt16, 5 + topicEnd.toNat, dataLen, type, version⟩

/-- The calls for one subscription. -/
def callbacksAt : List Callback → Access UInt8 (List (Callback × Slices))
  | [] => pure []
  | callback :: callbacks => do
    let arguments ← argumentsAt nodeId dataLen
    let calls ← callbacksAt callbacks
    pure ((callback, arguments) :: calls)

/-- A round of the loop of `bm_handle_msg`. -/
def subscriptionAt (sub : BmSub Callback) : Access UInt8 (List (Callback × Slices)) := do
  let topicLen ← Access.readAt 2
  let found ← bmWildcardMatchAt 5 topicLen.toNat sub.topic
  if found then callbacksAt nodeId dataLen sub.callbacks else pure []

def subscriptionsAt : List (BmSub Callback) → Access UInt8 (List (Callback × Slices))
  | [] => pure []
  | sub :: subs => do
    let calls ← subscriptionAt nodeId dataLen sub
    let rest ← subscriptionsAt subs
    pure (calls ++ rest)

/-- `bm_handle_msg` on a buffer -/
def bmHandleMsgAt (subs : List (BmSub Callback)) (size : Nat) :
    Access UInt8 (List (Callback × Slices)) := do
  let topicLen ← Access.readAt 2
  subscriptionsAt nodeId (UInt16.ofNat size - 5 - topicLen.toUInt16) subs

end Functions

/-- What a callback finds at its arguments. -/
def Slices.delivery (s : Slices) (buf : List UInt8) : Delivery :=
  ⟨s.nodeId, chars s.topicLen.toNat (buf.drop s.topic), chars s.dataLen.toNat (buf.drop s.data),
    s.type, s.version⟩

/-- The message has no room for its header and the topic that it tells. -/
def TooShort (buf : List UInt8) : Prop := buf.length < 5 + (buf.getD 2 0).toNat

/-- Only the message is read, what is handed to the callbacks lies in it, and nothing is handed to
them of a message that is too short. -/
structure SlicedInBounds {Callback : Type} (subs : List (BmSub Callback)) (nodeId : UInt64)
    (beyond : Nat → UInt8) (buf : List UInt8) : Prop where
  reads : (bmHandleMsgAt nodeId subs buf.length).Within beyond buf
  topics : ∀ call ∈ ((bmHandleMsgAt nodeId subs buf.length).run beyond buf).1,
    call.2.topic + call.2.topicLen.toNat ≤ buf.length
  datas : ∀ call ∈ ((bmHandleMsgAt nodeId subs buf.length).run beyond buf).1,
    call.2.data + call.2.dataLen.toNat ≤ buf.length
  calls : TooShort buf → ((bmHandleMsgAt nodeId subs buf.length).run beyond buf).1 = []

section Messages
variable {Callback : Type} {beyond : Nat → UInt8} {buf : List UInt8} {nodeId : UInt64}
  {dataLen : UInt16}

/-- The arguments of every call for a message. -/
def argumentsOf (beyond : Nat → UInt8) (buf : List UInt8) (nodeId : UInt64) (dataLen : UInt16) :
    Slices :=
  ⟨nodeId, 5, (byteAt beyond buf 2).toUInt16, 5 + (byteAt beyond buf 2).toNat, dataLen,
    byteAt beyond buf 3, byteAt beyond buf 4⟩

/-- The topic that the message tells, with whatever is behind the message. -/
def topicAt (beyond : Nat → UInt8) (buf : List UInt8) : List UInt8 :=
  window beyond buf 5 (byteAt beyond buf 2).toNat

theorem run_argumentsAt : (argumentsAt nodeId dataLen).run beyond buf =
    (argumentsOf beyond buf nodeId dataLen, buf) := rfl

theorem within_argumentsAt : (argumentsAt nodeId dataLen).Within beyond buf ↔ 5 ≤ buf.length := by
  simp only [argumentsAt, Access.within_bind, Access.within_readAt, Access.run_readAt,
    Access.within_pure, and_true]
  omega

theorem run_callbacksAt (callbacks : List Callback) :
    (callbacksAt nodeId dataLen callbacks).run beyond buf =
      (callbacks.map (·, argumentsOf beyond buf nodeId dataLen), buf) := by
  induction callbacks with
  | nil => rfl
  | cons callback callbacks ih =>
    simp only [callbacksAt, Access.run_bind, run_argumentsAt, ih, Access.run_pure, List.map_cons]

theorem within_callbacksAt (callbacks : List Callback) :
    (callbacksAt nodeId dataLen callbacks).Within beyond buf ↔
      callbacks = [] ∨ 5 ≤ buf.length := by
  induction callbacks with
  | nil => exact iff_of_true (Access.within_pure _) (.inl rfl)
  | cons callback callbacks ih =>
    rw [callbacksAt, Access.within_bind, within_argumentsAt, run_argumentsAt, Access.within_bind,
      ih]
    simp only [Access.within_pure, reduceCtorEq, false_or, and_true, and_iff_left_iff_imp]
    exact .inr

/-- The calls for a subscription. -/
def callsOf (beyond : Nat → UInt8) (buf : List UInt8) (nodeId : UInt64) (dataLen : UInt16)
    (sub : BmSub Callback) : List (Callback × Slices) :=
  if bmWildcardMatch (topicAt beyond buf) sub.topic then
    sub.callbacks.map (·, argumentsOf beyond buf nodeId dataLen)
  else []

theorem run_subscriptionAt (sub : BmSub Callback) :
    (subscriptionAt nodeId dataLen sub).run beyond buf =
      (callsOf beyond buf nodeId dataLen sub, buf) := by
  rw [subscriptionAt, Access.run_bind, Access.run_readAt_byteAt, Access.run_bind,
    run_bmWildcardMatchAt, callsOf, ← topicAt]
  cases bmWildcardMatch (topicAt beyond buf) sub.topic with
  | true => exact run_callbacksAt sub.callbacks
  | false => rfl

/-- What is compared with a subscription and read for its callbacks lies in the message. -/
def ReadsInside (beyond : Nat → UInt8) (buf : List UInt8) (sub : BmSub Callback) : Prop :=
  (∀ k ∈ bmWildcardLooks (topicAt beyond buf) sub.topic, 5 + k < buf.length) ∧
    (bmWildcardMatch (topicAt beyond buf) sub.topic = true → sub.callbacks = [] ∨ 5 ≤ buf.length)

theorem within_subscriptionAt (sub : BmSub Callback) (hlength : 3 ≤ buf.length) :
    (subscriptionAt nodeId dataLen sub).Within beyond buf ↔ ReadsInside beyond buf sub := by
  have hlook : (bmWildcardMatchAt 5 (byteAt beyond buf 2).toNat sub.topic).Within beyond buf ↔
      ∀ k ∈ bmWildcardLooks (topicAt beyond buf) sub.topic, 5 + k < buf.length := by
    rw [Access.Within, offsets_bmWildcardMatchAt, List.forall_mem_map]
    rfl
  rw [subscriptionAt, Access.within_bind, Access.within_readAt, Access.run_readAt_byteAt,
    Access.within_bind, hlook, run_bmWildcardMatchAt, ← topicAt, Access.within_ite,
    within_callbacksAt, ReadsInside]
  simp only [Access.within_pure, implies_true, and_true]
  exact and_iff_right (by omega)

theorem run_subscriptionsAt (subs : List (BmSub Callback)) :
    (subscriptionsAt nodeId dataLen subs).run beyond buf =
      (subs.flatMap (callsOf beyond buf nodeId dataLen), buf) := by
  induction subs with
  | nil => rfl
  | cons sub subs ih =>
    simp only [subscriptionsAt, Access.run_bind, run_subscriptionAt, ih, Access.run_pure,
      List.flatMap_cons]

theorem within_subscriptionsAt (subs : List (BmSub Callback)) (hlength : 3 ≤ buf.length) :
    (subscriptionsAt nodeId dataLen subs).Within beyond buf ↔
      ∀ sub ∈ subs, ReadsInside beyond buf sub := by
  induction subs with
  | nil => exact iff_of_true (Access.within_pure _) (by simp)
  | cons sub subs ih =>
    rw [subscriptionsAt, Access.within_bind, within_subscriptionAt sub hlength, run_subscriptionAt,
      Access.within_bind, ih, List.forall_mem_cons]
    simp only [Access.within_pure, and_true]

/-- What `bm_handle_msg` calls, with the length of the data in 16 bits. -/
theorem run_bmHandleMsgAt (subs : List (BmSub Callback)) (size : Nat) :
    (bmHandleMsgAt nodeId subs size).run beyond buf =
      (subs.flatMap (callsOf beyond buf nodeId
        (UInt16.ofNat size - 5 - (byteAt beyond buf 2).toUInt16)), buf) :=
  run_subscriptionsAt subs

theorem within_bmHandleMsgAt (subs : List (BmSub Callback)) (size : Nat) :
    (bmHandleMsgAt nodeId subs size).Within beyond buf ↔
      3 ≤ buf.length ∧ ∀ sub ∈ subs, ReadsInside beyond buf sub := by
  rw [bmHandleMsgAt, Access.within_bind, Access.within_readAt]
  refine and_congr_right fun hlength => ?_
  exact within_subscriptionsAt subs hlength

theorem mem_wildcardLooks {str pattern : List UInt8} {fuel i j matchIdx k : Nat}
    {starIdx : Option Nat} (h : k ∈ wildcardLooks str pattern fuel i j matchIdx starIdx) :
    k < str.length := by
  induction fuel generalizing i j matchIdx starIdx with
  | zero => simp [wildcardLooks] at h
  | succ fuel ih =>
    unfold wildcardLooks at h
    split_ifs at h <;> grind

/-- What lies behind the message plays no part, if none of it is compared. -/
theorem looks_congr {len : Nat} {pattern : List UInt8} (beyond' : Nat → UInt8)
    (h : ∀ k ∈ bmWildcardLooks (window beyond buf 5 len) pattern, 5 + k < buf.length) :
    bmWildcardLooks (window beyond' buf 5 len) pattern =
        bmWildcardLooks (window beyond buf 5 len) pattern ∧
      bmWildcardMatch (window beyond' buf 5 len) pattern =
        bmWildcardMatch (window beyond buf 5 len) pattern := by
  have hwithin : (bmWildcardMatchAt 5 len pattern).Within beyond buf := by
    rwa [Access.Within, offsets_bmWildcardMatchAt, List.forall_mem_map]
  have hlooks := hwithin.offsets_eq beyond'
  have hmatch := hwithin.run_eq beyond'
  rw [offsets_bmWildcardMatchAt, offsets_bmWildcardMatchAt] at hlooks
  rw [run_bmWildcardMatchAt, run_bmWildcardMatchAt] at hmatch
  exact ⟨List.map_injective_iff.mpr (add_right_injective 5) hlooks, (Prod.mk.inj hmatch).1⟩

/-- The data ends where the message ends, or before. -/
theorem dataLen_le {size : Nat} {topicLen : UInt8} (h : 5 + topicLen.toNat ≤ size) :
    5 + topicLen.toNat + (UInt16.ofNat size - 5 - topicLen.toUInt16).toNat ≤ size := by
  obtain ⟨rest, rfl⟩ := Nat.exists_eq_add_of_le h
  have hsum : UInt16.ofNat (5 + topicLen.toNat + rest) =
      5 + topicLen.toUInt16 + UInt16.ofNat rest := by
    rw [UInt16.ofNat_add, UInt16.ofNat_add, UInt16.ofNat_uInt8ToNat]
    rfl
  have hsub : 5 + topicLen.toUInt16 + UInt16.ofNat rest - 5 - topicLen.toUInt16 =
      UInt16.ofNat rest := by
    grind
  rw [hsum, hsub, UInt16.toNat_ofNat']
  have := Nat.mod_le rest (2 ^ 16)
  omega

theorem byteAt_of_lt {i : Nat} (h : i < buf.length) : byteAt beyond buf i = buf.getD i 0 := by
  simp [byteAt, h]

theorem mem_callsOf {sub : BmSub Callback} {call : Callback × Slices}
    (h : call ∈ callsOf beyond buf nodeId dataLen sub) :
    call.2 = argumentsOf beyond buf nodeId dataLen := by
  unfold callsOf at h
  split at h
  · obtain ⟨callback, -, rfl⟩ := List.mem_map.mp h
    rfl
  · simp at h

theorem callsOf_eq_nil {sub : BmSub Callback} : callsOf beyond buf nodeId dataLen sub = [] ↔
    (bmWildcardMatch (topicAt beyond buf) sub.topic = true → sub.callbacks = []) := by
  unfold callsOf
  split <;> simp_all

/-- The list model is what the callbacks find at their arguments. -/
theorem bmHandleMsg_eq_delivery (subs : List (BmSub Callback)) (nodeId : UInt64)
    (buf : List UInt8) (size : Nat) : bmHandleMsg subs nodeId buf size =
      ((bmHandleMsgAt nodeId subs size).run (fun _ => 0) buf).1.map fun call =>
        (call.1, call.2.delivery buf) := by
  have hbyte : ∀ i, byteAt (fun _ => 0) buf i = buf.getD i 0 := fun i => rfl
  have htopic : topicAt (fun _ => 0) buf = (Delivery.ofBuf nodeId buf size).topic := by
    rw [topicAt, window_zeros, hbyte]
    rfl
  have hdelivery : (argumentsOf (fun _ => 0) buf nodeId (UInt16.ofNat size - 5 -
      (byteAt (fun _ => 0) buf 2).toUInt16)).delivery buf = Delivery.ofBuf nodeId buf size := by
    simp only [argumentsOf, Slices.delivery, Delivery.ofBuf, hbyte, UInt8.toNat_toUInt16,
      UInt16.ofNat_uInt8ToNat]
  rw [run_bmHandleMsgAt, bmHandleMsg, List.map_flatMap]
  congr 1
  funext sub
  rw [callsOf, htopic]
  split
  · rw [List.map_map]
    exact List.map_congr_left fun callback _ => Prod.ext rfl hdelivery.symm
  · rfl

/-- A message with room for its header and its topic. -/
theorem slicedInBounds_of_room (subs : List (BmSub Callback)) (nodeId : UInt64)
    (beyond : Nat → UInt8) (h : ¬ TooShort buf) : SlicedInBounds subs nodeId beyond buf := by
  rw [TooShort, Nat.not_lt] at h
  have hlen : byteAt beyond buf 2 = buf.getD 2 0 := byteAt_of_lt (by omega)
  have hcall : ∀ call ∈ ((bmHandleMsgAt nodeId subs buf.length).run beyond buf).1,
      call.2 = argumentsOf beyond buf nodeId
        (UInt16.ofNat buf.length - 5 - (byteAt beyond buf 2).toUInt16) := by
    intro call hcall
    rw [run_bmHandleMsgAt] at hcall
    obtain ⟨sub, -, hcall⟩ := List.mem_flatMap.mp hcall
    exact mem_callsOf hcall
  refine ⟨?_, fun call hmem => ?_, fun call hmem => ?_, fun hshort => ?_⟩
  · refine (within_bmHandleMsgAt subs _).mpr ⟨by omega, fun sub _ => ⟨fun k hk => ?_, fun _ => ?_⟩⟩
    · have hlt := mem_wildcardLooks hk
      rw [topicAt, window_length, hlen] at hlt
      omega
    · exact .inr (by omega)
  · rw [hcall call hmem]
    simp only [argumentsOf, hlen, UInt8.toNat_toUInt16]
    omega
  · rw [hcall call hmem, argumentsOf, hlen]
    exact dataLen_le h
  · rw [TooShort] at hshort
    omega

/-- A message without room is sliced in bounds if nothing behind it is compared, and nothing is
called. -/
theorem slicedInBounds_of_short (subs : List (BmSub Callback)) (nodeId : UInt64)
    (beyond : Nat → UInt8) (h : TooShort buf) : SlicedInBounds subs nodeId beyond buf ↔
      3 ≤ buf.length ∧ ∀ sub ∈ subs,
        (∀ k ∈ bmWildcardLooks (topicAt beyond buf) sub.topic, 5 + k < buf.length) ∧
        (bmWildcardMatch (topicAt beyond buf) sub.topic = true → sub.callbacks = []) := by
  have hnil : ((bmHandleMsgAt nodeId subs buf.length).run beyond buf).1 = [] ↔ ∀ sub ∈ subs,
      (bmWildcardMatch (topicAt beyond buf) sub.topic = true → sub.callbacks = []) := by
    rw [run_bmHandleMsgAt, List.flatMap_eq_nil_iff]
    exact forall₂_congr fun sub _ => callsOf_eq_nil
  constructor
  · intro hlaw
    obtain ⟨hlength, hreads⟩ := (within_bmHandleMsgAt subs _).mp hlaw.reads
    exact ⟨hlength, fun sub hsub => ⟨(hreads sub hsub).1, hnil.mp (hlaw.calls h) sub hsub⟩⟩
  · rintro ⟨hlength, hsubs⟩
    have hcalls := hnil.mpr fun sub hsub => (hsubs sub hsub).2
    refine ⟨(within_bmHandleMsgAt subs _).mpr ⟨hlength, fun sub hsub => ⟨(hsubs sub hsub).1,
      fun hmatch => .inl ((hsubs sub hsub).2 hmatch)⟩⟩, ?_, ?_, fun _ => hcalls⟩ <;>
      simp [hcalls]

end Messages

/-- A message is sliced in bounds, exactly if it has room for its header and its topic, or it has
the length of its topic, no byte that it lacks is compared with a subscription, and no subscription
that has callbacks matches. -/
theorem sliced_in_bounds_iff {Callback : Type} (subs : List (BmSub Callback)) (nodeId : UInt64)
    (beyond : Nat → UInt8) (buf : List UInt8) : SlicedInBounds subs nodeId beyond buf ↔
      5 + (buf.getD 2 0).toNat ≤ buf.length ∨ 3 ≤ buf.length ∧ ∀ sub ∈ subs,
        let topic := chars (buf.getD 2 0).toNat (buf.drop 5)
        (∀ k ∈ bmWildcardLooks topic sub.topic, 5 + k < buf.length) ∧
        (bmWildcardMatch topic sub.topic = true → sub.callbacks = []) := by
  by_cases hroom : 5 + (buf.getD 2 0).toNat ≤ buf.length
  · have hnot : ¬ TooShort buf := Nat.not_lt.mpr hroom
    exact iff_of_true (slicedInBounds_of_room subs nodeId beyond hnot) (.inl hroom)
  · rw [slicedInBounds_of_short subs nodeId beyond (Nat.not_le.mp hroom), or_iff_right hroom]
    refine and_congr_right fun hlength => forall₂_congr fun sub _ => ?_
    rw [topicAt, byteAt_of_lt (by omega), ← window_zeros]
    constructor
    · rintro ⟨hlooks, hcalls⟩
      obtain ⟨hsame, hmatch⟩ := looks_congr (fun _ => 0) hlooks
      exact ⟨by rwa [hsame], by rwa [hmatch]⟩
    · rintro ⟨hlooks, hcalls⟩
      obtain ⟨hsame, hmatch⟩ := looks_congr beyond hlooks
      exact ⟨by rwa [hsame], by rwa [hmatch]⟩

/-- A header that tells a topic of 200 bytes, and no topic. -/
def bareHeader : List UInt8 := [0, 0, 200, 0, 2]

/-- The callback of the pattern `*` is given 200 bytes behind the message, and a length of the data
that has wrapped. -/
theorem bareHeader_sliced : ¬ SlicedInBounds [(⟨[0x2A], [1]⟩ : BmSub Nat)] 7 (fun _ => 0x5A)
    bareHeader ∧ ((bmHandleMsgAt 7 [(⟨[0x2A], [1]⟩ : BmSub Nat)] 5).run (fun _ => 0x5A)
      bareHeader).1 = [(1, ⟨7, 5, 200, 205, 65336, 0, 2⟩)] := by
  refine ⟨fun hlaw => ?_, by decide +kernel⟩
  rcases (sliced_in_bounds_iff _ _ _ _).mp hlaw with hroom | ⟨-, hsubs⟩
  · exact absurd hroom (by decide)
  · have hcalls := (hsubs _ (List.mem_singleton_self _)).2
    exact absurd (hcalls (by decide +kernel)) (by decide)

end BmCore.Middleware
