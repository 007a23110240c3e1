import BmCore.Bcmp.Targeted

/-!
# Ping replies

`bcmp_process_ping_request` (`bcmp/ping.c`). The reply is the request with another node ID, and as
long as its payload field says. The memory behind the message that was received is a part of the
model: it is read where the message is shorter.
-/
namespace BmCore.Bcmp
open Library

/-- The bytes from a pointer on. -/
abbrev Memory := Nat → UInt8

namespace Memory

/-- A message with what is behind it. -/
def behind (msg : List UInt8) (beyond : Memory) : Memory := fun i => msg.getD i (beyond i)

/-- The little-endian number in `len` bytes. -/
def load (mem : Memory) (off len : Nat) : Nat := leNat ((List.range len).map fun i => mem (off + i))

/-- Bytes are written from an offset on. -/
def store (mem : Memory) (off : Nat) (bs : List UInt8) : Memory := fun i =>
  if off ≤ i ∧ i < off + bs.length then bs.getD (i - off) 0 else mem i

end Memory

/-- `sizeof(BcmpEchoReply)`, and of `BcmpEchoRequest` -/
def echoReplySize : Nat := 14
def bcmpEchoReplyMessage : UInt16 := 0x03

/-- What `bcmp_tx` gives to `serialize`. -/
structure TxMessage where
  type : UInt16
  data : List UInt8
  seqNum : UInt32
  deriving DecidableEq

/-- `bcmp_tx` with a destination; `tx` is the result of `serialize` and `bm_ip_tx_perform`, if there
is a buffer. -/
def bcmpTxMessage (allocated : Bool) (tx : BmErr) (mem : Memory) (type size : UInt16)
    (seqNum : UInt32) : BmErr × Option TxMessage :=
  if size.toNat + heartbeatSize ≤ maxPayloadLen then
    if allocated then (tx, some ⟨type, (List.range size.toNat).map mem, seqNum⟩)
    else (.enomem, none)
  else (.einval, none)

/-- `bcmp_send_ping_reply`; the sum of the sizes is passed in 16 bits. -/
def bcmpSendPingReply (allocated : Bool) (tx : BmErr) (mem : Memory) (seqNum : UInt16) :
    BmErr × Option TxMessage :=
  bcmpTxMessage allocated tx mem bcmpEchoReplyMessage (.ofNat (echoReplySize + mem.load 12 2))
    seqNum.toUInt32

/-- `bcmp_process_ping_request` -/
def bcmpProcessPingRequest (nodeId : UInt64) (allocated : Bool) (tx : BmErr) (mem : Memory) :
    BmErr × Option TxMessage :=
  if mem.load 0 8 = 0 ∨ nodeId.toNat = mem.load 0 8 then
    let mem := mem.store 0 (leBytes 8 nodeId.toNat)
    bcmpSendPingReply allocated tx mem (.ofNat (mem.load 10 2))
  else (.enotintrec, none)

/-! ## Noninterference -/

/-- The request is for this node or for all. -/
abbrev ForThisNode (nodeId : UInt64) (mem : Memory) : Prop :=
  mem.load 0 8 = 0 ∨ nodeId.toNat = mem.load 0 8

/-- Runs on the same message send the same reply, whatever is behind it. -/
def ReplyLaw (nodeId : UInt64) (msg : List UInt8) : Prop :=
  ∀ allocated tx beyond beyond', ForThisNode nodeId (.behind msg beyond) →
    bcmpProcessPingRequest nodeId allocated tx (.behind msg beyond) =
      bcmpProcessPingRequest nodeId allocated tx (.behind msg beyond')

/-- The length of a reply to a message, in 16 bits. -/
def replySize (msg : List UInt8) : Nat := (echoReplySize + fieldAt msg 12 2) % 2 ^ 16

section
variable {msg : List UInt8} {beyond mem mem' : Memory} {off len n : Nat} {nodeId : UInt64}

theorem Memory.load_congr (h : ∀ i, off ≤ i → i < off + len → mem i = mem' i) :
    mem.load off len = mem'.load off len := by
  unfold Memory.load
  congr 1
  refine List.map_congr_left fun i hi => h _ (by omega) ?_
  have := List.mem_range.mp hi
  omega

theorem Memory.behind_lt (h : n < msg.length) : Memory.behind msg beyond n = msg[n] := by
  simp [Memory.behind, h]

theorem Memory.behind_ge (h : msg.length ≤ n) : Memory.behind msg beyond n = beyond n := by
  simp [Memory.behind, h]

/-- The first 14 bytes do not depend on what is behind them. -/
theorem Memory.load_behind (h : off + len ≤ msg.length) (beyond beyond' : Memory) :
    (Memory.behind msg beyond).load off len = (Memory.behind msg beyond').load off len :=
  Memory.load_congr fun i _ hi => by rw [Memory.behind_lt (by omega), Memory.behind_lt (by omega)]

theorem Memory.load_store (bs : List UInt8) (h : bs.length ≤ off) :
    (mem.store 0 bs).load off len = mem.load off len :=
  Memory.load_congr fun i hi _ => if_neg (by omega)

theorem load_payloadLen (h : echoReplySize ≤ msg.length) :
    (Memory.behind msg beyond).load 12 2 = fieldAt msg 12 2 := by
  rw [echoReplySize] at h
  have hbytes : (List.range 2).map (fun i => Memory.behind msg beyond (12 + i)) =
      (msg.drop 12).take 2 := by
    rw [show List.range 2 = [0, 1] from rfl, List.map_cons, List.map_cons, List.map_nil,
      Memory.behind_lt (show 12 + 0 < msg.length by omega),
      Memory.behind_lt (show 12 + 1 < msg.length by omega),
      List.drop_eq_getElem_cons (show 12 < msg.length by omega),
      List.drop_eq_getElem_cons (show 12 + 1 < msg.length by omega)]
    rfl
  rw [Memory.load, hbytes, fieldAt]

/-- The reply to a request for this node. -/
theorem process_addressed (h : ForThisNode nodeId mem) (allocated : Bool) (tx : BmErr) :
    bcmpProcessPingRequest nodeId allocated tx mem =
      bcmpTxMessage allocated tx (mem.store 0 (leBytes 8 nodeId.toNat)) bcmpEchoReplyMessage
        (.ofNat (echoReplySize + mem.load 12 2)) (UInt16.ofNat (mem.load 10 2)).toUInt32 := by
  rw [bcmpProcessPingRequest, if_pos h, bcmpSendPingReply,
    Memory.load_store _ (by simp), Memory.load_store _ (by simp)]

theorem sent_of_fits {type size : UInt16} {seqNum : UInt32}
    (h : size.toNat + heartbeatSize ≤ maxPayloadLen) : bcmpTxMessage true .ok mem type size seqNum =
      (.ok, some ⟨type, (List.range size.toNat).map mem, seqNum⟩) := by
  rw [bcmpTxMessage, if_pos h, if_pos rfl]

/-- A message that is as long as its reply decides it, and so does one whose reply is refused. -/
theorem ReplyLaw.of_fits (hlen : echoReplySize ≤ msg.length)
    (h : replySize msg ≤ msg.length ∨ maxPayloadLen < replySize msg + heartbeatSize) :
    ReplyLaw nodeId msg := by
  intro allocated tx beyond beyond' haddressed
  rw [echoReplySize] at hlen
  have haddressed' : ForThisNode nodeId (.behind msg beyond') := by
    rwa [ForThisNode, Memory.load_behind (by omega) beyond' beyond]
  rw [process_addressed haddressed, process_addressed haddressed', load_payloadLen hlen,
    load_payloadLen hlen, Memory.load_behind (by omega) beyond' beyond]
  have hsize : (UInt16.ofNat (echoReplySize + fieldAt msg 12 2)).toNat = replySize msg := by
    rw [UInt16.toNat_ofNat', replySize]
  unfold bcmpTxMessage
  rw [hsize]
  rcases h with hfits | hrefused
  · have hdata : (List.range (replySize msg)).map
          ((Memory.behind msg beyond).store 0 (leBytes 8 nodeId.toNat)) =
        (List.range (replySize msg)).map
          ((Memory.behind msg beyond').store 0 (leBytes 8 nodeId.toNat)) := by
      refine List.map_congr_left fun i hi => ?_
      have hlt := List.mem_range.mp hi
      rw [Memory.store, Memory.store, Memory.behind_lt (by omega), Memory.behind_lt (by omega)]
    rw [hdata]
  · rw [if_neg (by omega), if_neg (by omega)]

/-- A reply that is longer than the message has a byte of what is behind it. -/
theorem ReplyLaw.fits (h : ReplyLaw nodeId msg) (hlen : echoReplySize ≤ msg.length)
    (haddressed : ForThisNode nodeId (.behind msg beyond)) :
    replySize msg ≤ msg.length ∨ maxPayloadLen < replySize msg + heartbeatSize := by
  by_contra hnot
  obtain ⟨hlong, hsends⟩ := not_or.mp hnot
  have hlen' : 14 ≤ msg.length := hlen
  have haddressed' : ∀ beyond', ForThisNode nodeId (.behind msg beyond') := by
    intro beyond'
    rwa [ForThisNode, Memory.load_behind (by omega) beyond' beyond]
  have hsame := h true .ok (fun _ => 0) (fun _ => 1) (haddressed' _)
  have hsize : (UInt16.ofNat (echoReplySize + fieldAt msg 12 2)).toNat = replySize msg := by
    rw [UInt16.toNat_ofNat', replySize]
  rw [process_addressed (haddressed' _), process_addressed (haddressed' _), load_payloadLen hlen,
    load_payloadLen hlen, sent_of_fits (by omega), sent_of_fits (by omega)] at hsame
  have hdata := congrArg TxMessage.data (Option.some.inj (Prod.mk.inj hsame).2)
  have hbyte := List.map_inj_left.mp hdata msg.length (List.mem_range.mpr (by omega))
  have houtside : ¬ (0 ≤ msg.length ∧ msg.length < 0 + (leBytes 8 nodeId.toNat).length) := by
    rw [leBytes_length]
    omega
  rw [Memory.store, Memory.store, if_neg houtside, if_neg houtside, Memory.behind_ge le_rfl,
    Memory.behind_ge le_rfl] at hbyte
  exact absurd hbyte (by decide)

/-- Without all of its header, what is behind a message is in the length of the reply. -/
theorem not_replyLaw_of_short (hshort : msg.length < echoReplySize)
    (haddressed : ForThisNode nodeId (.behind msg beyond)) : ¬ ReplyLaw nodeId msg := by
  -- two continuations that differ in the high byte of `payload_len`
  intro h
  rw [echoReplySize] at hshort
  let zeros : Memory := fun i => if i < 12 then beyond i else 0
  let ones : Memory := fun i => if i < 12 then beyond i else if i = 13 then 1 else 0
  have htarget : ∀ beyond' : Memory, (∀ i < 12, beyond' i = beyond i) →
      ForThisNode nodeId (.behind msg beyond') := by
    intro beyond' hsame
    have hload : (Memory.behind msg beyond').load 0 8 = (Memory.behind msg beyond).load 0 8 :=
      Memory.load_congr fun i _ hi => by
        rw [Memory.behind, Memory.behind, hsame i (by omega)]
    rwa [ForThisNode, hload]
  have hlen : ∀ beyond', (Memory.behind msg beyond').load 12 2 =
      (msg.getD 12 (beyond' 12)).toNat + 256 * (beyond' 13).toNat := by
    intro beyond'
    have hhigh : msg[13]?.getD (beyond' 13) = beyond' 13 := by
      rw [List.getElem?_eq_none (by omega), Option.getD_none]
    simp [Memory.load, List.range_succ, leNat, hhigh, Memory.behind]
  have hzeros : (Memory.behind msg zeros).load 12 2 = (msg.getD 12 0).toNat := by
    rw [hlen]
    simp [zeros]
  have hones : (Memory.behind msg ones).load 12 2 = (msg.getD 12 0).toNat + 256 := by
    rw [hlen]
    simp [ones]
  have hbyte := (msg.getD 12 0).toNat_lt
  have hsame := h true .ok zeros ones (htarget zeros fun i hi => if_pos hi)
  have hsize : ∀ n, n < 600 → (UInt16.ofNat n).toNat = n := by
    intro n hn
    rw [UInt16.toNat_ofNat']
    omega
  rw [process_addressed (htarget zeros fun i hi => if_pos hi),
    process_addressed (htarget ones fun i hi => if_pos hi), hzeros, hones,
    sent_of_fits (by rw [hsize _ (by simp only [echoReplySize]; omega)]
                     simp only [echoReplySize, heartbeatSize, maxPayloadLen]; omega),
    sent_of_fits (by rw [hsize _ (by simp only [echoReplySize]; omega)]
                     simp only [echoReplySize, heartbeatSize, maxPayloadLen]; omega)] at hsame
  have hdata := congrArg TxMessage.data (Option.some.inj (Prod.mk.inj hsame).2)
  have hlengths := congrArg List.length hdata
  simp only [List.length_map, List.length_range] at hlengths
  rw [hsize _ (by simp only [echoReplySize]; omega),
    hsize _ (by simp only [echoReplySize]; omega)] at hlengths
  omega

/-- The reply is known from the message, exactly if the message cannot be for this node, or it has
its header and is as long as the reply, or the reply is refused for its length. -/
theorem ping_reply_law_iff (nodeId : UInt64) (msg : List UInt8) : ReplyLaw nodeId msg ↔
    (∀ beyond, ¬ ForThisNode nodeId (.behind msg beyond)) ∨
    (echoReplySize ≤ msg.length ∧
      (replySize msg ≤ msg.length ∨ maxPayloadLen < replySize msg + heartbeatSize)) := by
  constructor
  · intro h
    by_cases haddressed : ∃ beyond, ForThisNode nodeId (.behind msg beyond)
    · obtain ⟨beyond, haddressed⟩ := haddressed
      rcases Nat.lt_or_ge msg.length echoReplySize with hshort | hlen
      · exact absurd h (not_replyLaw_of_short hshort haddressed)
      · exact .inr ⟨hlen, h.fits hlen haddressed⟩
    · exact .inl (not_exists.mp haddressed)
  · rintro (hnever | ⟨hlen, hfits⟩)
    · exact fun _ _ beyond _ haddressed => absurd haddressed (hnever beyond)
    · exact .of_fits hlen hfits

/-- A request with a header that has four bytes of payload, but without these bytes. -/
def bareRequest : List UInt8 := leBytes 8 7 ++ [1, 0, 2, 0, 4, 0]

/-- The reply has the four bytes behind it. -/
theorem bareRequest_leaks : ¬ ReplyLaw 7 bareRequest ∧
    (bcmpProcessPingRequest 7 true .ok (.behind bareRequest fun _ => 0x5A)).2.map (·.data) =
      some (bareRequest ++ [0x5A, 0x5A, 0x5A, 0x5A]) := by
  refine ⟨fun h => ?_, by decide⟩
  have hsame := h true .ok (fun _ => 0) (fun _ => 0x5A) (by decide)
  exact absurd hsame (by decide)

end

end BmCore.Bcmp
