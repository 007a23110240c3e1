import BmCore.Bcmp.RoundTrip
import BmCore.Bcmp.Targeted

/-!
# Sending a message

`bcmp_tx` takes the length of a message in 16 bits and compares it, with the size of a heartbeat, to
the room of a packet; what it sends is the message behind a header. Its callers compute the length
of a message with the width they like.
-/
namespace BmCore.Bcmp
open Library LL

variable {Handler Callback : Type}

/-- What `bcmp_tx` finds around it: the buffers of `bm_ip_tx_new`, the section of `serialize` on
the sequence list and the result of `bm_ip_tx_perform`. -/
structure TxEnv where
  buffer : List UInt8 → Nat → Option Packet
  buffer_length : ∀ dst size packet, buffer dst size = some packet → packet.data.length = size
  taken : Bool
  node : Option Nat
  now : UInt32
  perform : Packet → BmErr

/-- `bcmp_tx`, with the packet that is sent. `bm_ip_tx_perform` sends it unless it fails. -/
def bcmpTx (env : TxEnv) (p : PacketInfo Handler Callback) (dst : Option (List UInt8))
    (type : UInt16) (data : List UInt8) (size : UInt16) (seqNum : UInt32)
    (replyCb : Option Callback) :
    Option (PacketInfo Handler Callback × BmErr × Option Packet) :=
  match dst with
  | none => some (p, .einval, none)
  | some dst =>
    -- the size of the wrong structure
    if size.toNat + heartbeatSize ≤ maxPayloadLen then
      match env.buffer dst (size.toNat + bcmpHeaderSize) with
      | none => some (p, .enomem, none)
      | some buf => do
        let (p, buf, err) ← serialize p env.taken env.node env.now buf (data.take size.toNat) type
          seqNum replyCb
        if err = .ok then
          some (p, env.perform buf, if env.perform buf = .ok then some buf else none)
        else some (p, err, none)
    else some (p, .einval, none)

/-- The size law: a message that is sent fits a packet and is sent whole, and without success
nothing is sent. -/
structure SizeLaw (data : List UInt8) (err : BmErr) (sent : Option Packet) : Prop where
  whole : err = .ok → ∃ frame, sent = some frame ∧ frame.data.length ≤ maxPayloadLen ∧
    frame.data.drop bcmpHeaderSize = data
  nothing : err ≠ .ok → sent = none

/-- The size law holds of every call for a message whose caller computes its length, whatever the
call finds around it. -/
def KeepsSizeLaw (Handler Callback : Type) (dst : Option (List UInt8)) (type : UInt16)
    (data : List UInt8) (seqNum : UInt32) (replyCb : Option Callback) : Prop :=
  ∀ (env : TxEnv) (p p' : PacketInfo Handler Callback) (err : BmErr) (sent : Option Packet),
    bcmpTx env p dst type data (.ofNat data.length) seqNum replyCb = some (p', err, sent) →
    SizeLaw data err sent

/-- The message is refused, or fits with the header that it is sent behind. -/
def SizeFits (dst : Option (List UInt8)) (length : Nat) : Prop :=
  dst = none ∨ length + bcmpHeaderSize ≤ maxPayloadLen ∨
    maxPayloadLen < length % 2 ^ 16 + heartbeatSize

/-! ## One call -/

/-- A packet that is serialized holds the message behind its header. -/
theorem serialize_data {p p' : PacketInfo Handler Callback} {taken : Bool} {node : Option Nat}
    {now : UInt32} {packet packet' : Packet} {data : List UInt8} {type : UInt16} {seqNum : UInt32}
    {cb : Option Callback}
    (h : serialize p taken node now packet data type seqNum cb = some (p', packet', .ok)) :
    ∃ checksum seq, packet'.data = header type checksum seq ++
      (data ++ packet.data.drop (bcmpHeaderSize + data.length)) := by
  unfold serialize at h
  split at h
  · simp at h
  obtain ⟨found, -, h⟩ := Option.bind_eq_some_iff.mp h
  cases found with
  | none => simp at h
  | some cfg =>
    obtain ⟨p₁, -, h⟩ := Option.bind_eq_some_iff.mp h
    simp only [Option.some.injEq, Prod.mk.injEq, and_true] at h
    obtain ⟨-, rfl⟩ := h
    simp only [List.append_assoc, setChecksum_header]
    exact ⟨_, _, rfl⟩

/-- What a call sends: nothing if it fails, and otherwise as many bytes as the 16-bit length tells,
which have passed the check. -/
theorem bcmpTx_cases {env : TxEnv} {p p' : PacketInfo Handler Callback}
    {dst : Option (List UInt8)} {type : UInt16} {data : List UInt8} {size : UInt16}
    {seqNum : UInt32} {replyCb : Option Callback} {err : BmErr} {sent : Option Packet}
    (hsize : size.toNat ≤ data.length)
    (h : bcmpTx env p dst type data size seqNum replyCb = some (p', err, sent)) :
    (err ≠ .ok ∧ sent = none) ∨
    (err = .ok ∧ dst ≠ none ∧ size.toNat + heartbeatSize ≤ maxPayloadLen ∧
      ∃ frame, sent = some frame ∧ frame.data.length = size.toNat + bcmpHeaderSize ∧
        frame.data.drop bcmpHeaderSize = data.take size.toNat) := by
  have hfail : ∀ {q : PacketInfo Handler Callback} {e : BmErr}, e ≠ .ok →
      some (q, e, none) = some (p', err, sent) → err ≠ .ok ∧ sent = none := by
    intro q e he h
    obtain ⟨-, rfl, rfl⟩ := by simpa using h
    exact ⟨he, rfl⟩
  cases dst with
  | none => exact .inl (hfail (by decide) h)
  | some dst =>
    simp only [bcmpTx] at h
    split at h
    case isFalse => exact .inl (hfail (by decide) h)
    rename_i hfits
    split at h
    · exact .inl (hfail (by decide) h)
    rename_i buf hbuf
    have hlength := env.buffer_length _ _ _ hbuf
    obtain ⟨⟨p₁, buf', err'⟩, hserialize, h⟩ := Option.bind_eq_some_iff.mp h
    by_cases herr : err' = .ok
    · subst herr
      obtain ⟨checksum, seq, hdata⟩ := serialize_data hserialize
      have hrest : buf.data.drop (bcmpHeaderSize + (data.take size.toNat).length) = [] := by
        rw [List.drop_eq_nil_iff, List.length_take]
        omega
      simp only [if_true, Option.some.injEq, Prod.mk.injEq] at h
      obtain ⟨-, rfl, rfl⟩ := h
      by_cases hperform : env.perform buf' = .ok
      · refine .inr ⟨hperform, by simp, hfits, buf', if_pos hperform, ?_, ?_⟩
        · rw [hdata, hrest, List.append_nil, List.length_append, header_length, List.length_take]
          omega
        · rw [hdata, hrest, List.append_nil, List.drop_left' (header_length _ _ _)]
      · exact .inl ⟨hperform, if_neg hperform⟩
    · exact .inl (hfail herr (by simpa [herr] using h))

/-! ## A call that succeeds -/

/-- A module of which one message type is registered. -/
def registeredFor (Handler Callback : Type) (type : UInt16) : PacketInfo Handler Callback where
  checksum _ _ := 0
  initialized := true
  sequenceList := LL.empty
  packetList := ⟨AList.singleton 0 ⟨none, none, ⟨false, false, none⟩, type.toUInt32⟩, some 0,
    some 0, none⟩
  messageCount := 0

/-- Everything that `bcmp_tx` calls succeeds. -/
def obligingEnv : TxEnv where
  buffer dst size := some ⟨[], dst, List.replicate size 0⟩
  buffer_length dst size packet h := by
    obtain rfl := Option.some.inj h
    simp
  taken := true
  node := none
  now := 0
  perform _ := .ok

theorem registeredFor_getItem (type : UInt16) :
    (registeredFor Handler Callback type).packetList.getItem type.toUInt32 =
      some (some ⟨false, false, none⟩) := by
  simp [registeredFor, getItem, getPtr, fuel, walk, AList.keys, AList.lookup]

/-- A message that passes the check is sent. -/
theorem bcmpTx_obliging (Handler : Type) (dst : List UInt8) (type : UInt16) (data : List UInt8)
    (size : UInt16) (seqNum : UInt32) (replyCb : Option Callback)
    (hfits : size.toNat + heartbeatSize ≤ maxPayloadLen) :
    ∃ p' frame, bcmpTx obligingEnv (registeredFor Handler Callback type) (some dst) type data size
      seqNum replyCb = some (p', .ok, some frame) := by
  simp only [bcmpTx, if_pos hfits, obligingEnv, serialize, registeredFor_getItem]
  simp [registeredFor, serializeSequence]

/-! ## The law -/

/-- What the size law says of a message that passes the check. -/
theorem fits_of_keepsSizeLaw {dst : List UInt8} {type : UInt16} {data : List UInt8}
    {seqNum : UInt32} {replyCb : Option Callback}
    (hlaw : KeepsSizeLaw Handler Callback (some dst) type data seqNum replyCb)
    (hpass : data.length % 2 ^ 16 + heartbeatSize ≤ maxPayloadLen) :
    data.length + bcmpHeaderSize ≤ maxPayloadLen := by
  have hsize : (UInt16.ofNat data.length).toNat = data.length % 2 ^ 16 := UInt16.toNat_ofNat'
  have hle : (UInt16.ofNat data.length).toNat ≤ data.length := by
    rw [hsize]
    exact Nat.mod_le _ _
  obtain ⟨p', frame, hcall⟩ := bcmpTx_obliging Handler dst type data (.ofNat data.length)
    seqNum replyCb (by rwa [hsize])
  obtain ⟨frame', hframe, hlength, hdata⟩ := (hlaw _ _ _ _ _ hcall).whole rfl
  rcases bcmpTx_cases hle hcall with ⟨hno, -⟩ | ⟨-, -, -, sent, hsent, -, hdrop⟩
  · exact absurd rfl hno
  obtain rfl := Option.some.inj (hframe.symm.trans hsent)
  have hcount := congrArg List.length hdata
  rw [List.length_drop] at hcount
  by_cases hempty : data.length = 0
  · rw [hempty]
    decide
  · omega

/-- The size law holds of all calls for a message exactly when the message fits with its header, or
its length, in 16 bits, does not even pass the check. -/
theorem keepsSizeLaw_iff (dst : Option (List UInt8)) (type : UInt16) (data : List UInt8)
    (seqNum : UInt32) (replyCb : Option Callback) :
    KeepsSizeLaw Handler Callback dst type data seqNum replyCb ↔ SizeFits dst data.length := by
  have hsize : (UInt16.ofNat data.length).toNat = data.length % 2 ^ 16 := UInt16.toNat_ofNat'
  have hle : (UInt16.ofNat data.length).toNat ≤ data.length := by
    rw [hsize]
    exact Nat.mod_le _ _
  constructor
  · intro hlaw
    cases dst with
    | none => exact .inl rfl
    | some dst =>
      by_cases hpass : data.length % 2 ^ 16 + heartbeatSize ≤ maxPayloadLen
      · exact .inr (.inl (fits_of_keepsSizeLaw hlaw hpass))
      · exact .inr (.inr (not_le.mp hpass))
  · intro hfits env p p' err sent hcall
    rcases bcmpTx_cases hle hcall with
      ⟨herr, rfl⟩ | ⟨rfl, hdst, hpass, frame, rfl, hlength, hdrop⟩
    · exact ⟨fun h => absurd h herr, fun _ => rfl⟩
    · have hfit : data.length + bcmpHeaderSize ≤ maxPayloadLen := by
        rcases hfits with hnone | hfit | hlong
        · exact absurd hnone hdst
        · exact hfit
        · omega
      -- a message that fits is shorter than 2 ^ 16 bytes: its length keeps its value
      have hkeep : (UInt16.ofNat data.length).toNat = data.length := by
        rw [hsize]
        apply Nat.mod_eq_of_lt
        simp only [maxPayloadLen] at hfit
        omega
      refine ⟨fun _ => ⟨frame, rfl, ?_, ?_⟩, fun h => absurd rfl h⟩
      · rwa [hlength, hkeep]
      · rw [hdrop, hkeep, List.take_length]

/-- Of 1448 bytes a packet of 1461 bytes is sent, and of 65536 bytes the header alone. -/
theorem not_keepsSizeLaw :
    ¬ KeepsSizeLaw Unit Unit (some []) 0x0F (List.replicate 1448 0) 0 none ∧
    ¬ KeepsSizeLaw Unit Unit (some []) 0x0F (List.replicate 65536 0) 0 none := by
  constructor <;> intro hlaw <;>
    have hfits := fits_of_keepsSizeLaw hlaw
      (by rw [List.length_replicate]; simp [heartbeatSize, maxPayloadLen])
  all_goals
    rw [List.length_replicate] at hfits
    simp [bcmpHeaderSize, maxPayloadLen] at hfits

end BmCore.Bcmp
