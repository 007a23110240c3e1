import BmCore.Dfu.Node

/-!
# Two nodes on a link

A host and a client that hear each other. What a node has sent is read off the log of its calls. The
frames are read back as they were written.
-/
namespace BmCore.Dfu
open Library

/-! ## Frames -/

section Frames
variable (beyond : Nat → UInt8) (type : UInt8) (src dst : UInt64) (rest : List UInt8)

/-- A field behind the header. -/
theorem window_field (pre field post : List UInt8) (off len : Nat) (hoff : off = 17 + pre.length)
    (hlen : len = field.length) :
    window beyond (frameHeader type src dst ++ (pre ++ (field ++ post))) off len = field := by
  subst hoff hlen
  rw [window_append_right beyond _ _ (frameHeader_length type src dst) (by simp),
    window_eq_slice _ _ (by simp), List.drop_left, List.take_left]

/-- A field of the header. -/
theorem window_in_header {off len : Nat} (h : off + len ≤ 17) :
    window beyond (frameHeader type src dst ++ rest) off len =
      ((frameHeader type src dst).drop off).take len := by
  rw [window_append_left beyond _ rest (by simpa using h), window_eq_slice _ _ (by simpa using h)]

@[simp] theorem frameType_header : frameType beyond (frameHeader type src dst ++ rest) = type := rfl

theorem u64_leBytes (a : UInt64) : UInt64.ofNat (leNat (leBytes 8 a.toNat)) = a := by
  rw [leNat_leBytes (by simpa using a.toNat_lt)]
  simp

@[simp] theorem srcNodeId_header : srcNodeId beyond (frameHeader type src dst ++ rest) = src := by
  rw [srcNodeId, u64At, window_in_header beyond type src dst rest (by decide)]
  simp only [frameHeader, List.drop_succ_cons, List.drop_zero]
  rw [List.take_append_of_le_length (by simp), List.take_of_length_le (by simp), u64_leBytes]

@[simp] theorem dstNodeId_header : dstNodeId beyond (frameHeader type src dst ++ rest) = dst := by
  rw [dstNodeId, u64At, window_in_header beyond type src dst rest (by decide)]
  simp only [frameHeader, List.drop_succ_cons]
  rw [List.drop_append_of_le_length (by simp), List.drop_eq_nil_of_le (by simp), List.nil_append,
    List.take_of_length_le (by simp), u64_leBytes]

theorem u16_leBytes {n : Nat} (h : n < 2 ^ 16) :
    (UInt16.ofNat (leNat (leBytes 2 n))).toNat = n := by
  rw [leNat_leBytes (by simpa using h), UInt16.toNat_ofNat']
  exact Nat.mod_eq_of_lt h

theorem seqNum_payloadReqFrame {n : Nat} (h : n < 2 ^ 16) :
    seqNum beyond (payloadReqFrame src dst n) = n := by
  have hfield := window_field beyond bcmpDFUPayloadReqMessage src dst [] (leBytes 2 n) []
    17 2 rfl (by simp)
  simp only [List.nil_append, List.append_nil] at hfield
  rw [seqNum, u16At, payloadReqFrame, hfield, u16_leBytes h]

theorem payloadLength_payloadFrame {len : Nat} (h : len < 2 ^ 16) (payload : List UInt8) :
    payloadLength beyond (payloadFrame src dst len payload) = len := by
  have hfield := window_field beyond bcmpDFUPayloadMessage src dst [] (leBytes 2 len) payload
    17 2 rfl (by simp)
  rw [payloadLength, u16At, payloadFrame, List.append_assoc,
    ← List.nil_append (leBytes 2 len ++ payload),
    hfield, u16_leBytes h]

theorem payloadBuf_payloadFrame (payload : List UInt8) (len : Nat) :
    payloadBuf beyond (payloadFrame src dst len payload) payload.length = payload := by
  have hfield := window_field beyond bcmpDFUPayloadMessage src dst (leBytes 2 len) payload []
    19 payload.length (by simp) rfl
  rw [List.append_nil] at hfield
  rw [payloadBuf, payloadFrame, List.append_assoc, hfield]

theorem resultSuccess_resultFrame (success : UInt8) (err : BmDfuErr) :
    resultSuccess beyond (resultFrame type src dst success err) = success := by
  simp [resultSuccess, byteAt, resultFrame, List.getD_eq_getElem?_getD]

theorem imgInfo_startFrame (info : BmDfuImgInfo) :
    imgInfo beyond (startFrame src dst info) = info := by
  obtain ⟨size, chunk, crc, major, minor, key, sha⟩ := info
  have hfield := window_field beyond bcmpDFUStartMessage src dst
  have hsize := hfield [] (leBytes 4 size.toNat) (leBytes 2 chunk.toNat ++ (leBytes 2 crc.toNat ++
    ([major, minor] ++ (leBytes 4 key.toNat ++ leBytes 4 sha.toNat)))) 17 4 rfl (by simp)
  have hchunk := hfield (leBytes 4 size.toNat) (leBytes 2 chunk.toNat) (leBytes 2 crc.toNat ++
    ([major, minor] ++ (leBytes 4 key.toNat ++ leBytes 4 sha.toNat))) 21 2 (by simp) (by simp)
  have hcrc := hfield (leBytes 4 size.toNat ++ leBytes 2 chunk.toNat) (leBytes 2 crc.toNat)
    ([major, minor] ++ (leBytes 4 key.toNat ++ leBytes 4 sha.toNat)) 23 2 (by simp) (by simp)
  have hkey := hfield (leBytes 4 size.toNat ++ leBytes 2 chunk.toNat ++ leBytes 2 crc.toNat ++
    [major, minor]) (leBytes 4 key.toNat) (leBytes 4 sha.toNat) 27 4 (by simp) (by simp)
  have hsha := hfield (leBytes 4 size.toNat ++ leBytes 2 chunk.toNat ++ leBytes 2 crc.toNat ++
    [major, minor] ++ leBytes 4 key.toNat) (leBytes 4 sha.toNat) [] 31 4 (by simp) (by simp)
  simp only [List.nil_append, List.append_nil, List.append_assoc] at hsize hchunk hcrc hkey hsha
  simp only [imgInfo, startFrame, BmDfuImgInfo.bytes, u32At, u16At, List.append_assoc, hsize,
    hchunk,
    hcrc, hkey, hsha]
  rw [leNat_leBytes (by simpa using size.toNat_lt), leNat_leBytes (by simpa using chunk.toNat_lt),
    leNat_leBytes (by simpa using crc.toNat_lt), leNat_leBytes (by simpa using key.toNat_lt),
    leNat_leBytes (by simpa using sha.toNat_lt)]
  simp [byteAt, List.getD_eq_getElem?_getD]

end Frames

/-! ## What a node has sent -/

/-- The frame of a `bcmp_tx` that succeeded. -/
def Effect.sentFrame : Effect → Option (List UInt8)
  | .tx frame .ok => some frame
  | _ => none

/-- Everything a node has sent, from the first frame to the last. -/
def World.sent (w : World) : List (List UInt8) := (w.log.filterMap Effect.sentFrame).reverse

theorem sent_of_log {w u : World} (es : List Effect) (h : u.log = es ++ w.log) :
    u.sent = w.sent ++ (es.filterMap Effect.sentFrame).reverse := by
  rw [World.sent, World.sent, h, List.filterMap_append, List.reverse_append]

/-- Calls that send nothing do not matter. -/
theorem sent_of_seen {w u : World} (h : u.seen (·.sentFrame.isSome) = w.seen (·.sentFrame.isSome)) :
    u.sent = w.sent := by
  have hfilter : ∀ log : List Effect,
      (log.filter (·.sentFrame.isSome)).filterMap Effect.sentFrame =
      log.filterMap Effect.sentFrame := by
    intro log
    rw [List.filterMap_filter]
    congr 1
    funext e
    cases e.sentFrame <;> rfl
  rw [World.sent, World.sent, ← hfilter u.log, ← hfilter w.log]
  exact congrArg (fun log => (log.filterMap Effect.sentFrame).reverse) h

/-! ## One iteration -/

section Iteration
variable {env : Env} {evt : BmDfuEvent} {w u : World}

/-- The run function asks for nothing. -/
theorem consume_stays (h : w.afterRun env evt = u) (hpending : u.core.pendingStateChange = false) :
    consume env evt w = u := by
  rw [consume_eq, ← World.afterRun, h, settle, hpending]
  rfl

/-- The run function asks for another state. -/
theorem consume_moves (s t : BmDfuState) (h : w.afterRun env evt = u)
    (hpending : u.core.pendingStateChange = true)
    (hs : u.core.currentState = s) (hhost : s ≠ .hostUpdate) (ht : u.core.newState = t)
    (hne : s ≠ t) :
    consume env evt w = LibSmState.call (dfuStates env t).onStateEntry (u.entering t) := by
  rw [consume_eq, ← World.afterRun, h, settle, hpending, if_pos rfl]
  dsimp only
  rw [if_pos (by rw [hs, ht]; exact hne), ← moved_eq_entry env hs hhost ht]
  rfl

/-- A turn of the event thread. -/
theorem turn_eq {rest : List BmDfuEvent} {v : World} (hqueue : w.queue = evt :: rest)
    (hconsume : consume env evt (w.withQueue rest) = v) : act env w .turn = v.released evt := by
  rw [act_turn_cons env hqueue, hconsume]

end Iteration

end BmCore.Dfu
