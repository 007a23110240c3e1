import BmCore.Common.Util
import BmCore.Library.Bytes
import BmCore.Library.Ring
import BmCore.Library.Runs

/-!
# Stream buffers

`bm_stream_buffer_send` and `bm_stream_buffer_receive` in both ports. In `common/bm_posix.c` a send
that does not fit is stored in pieces: it gives up its lock while it waits for room, and what it has
stored by then stays if it gives up itself. In `common/bm_freertos.c` it is left to
`xStreamBufferSend` how much is stored.
-/
namespace BmCore
open Library

/-- `PosixStreamBuffer`, with the bytes behind `storage` -/
structure PosixStreamBuffer where
  storage : Nat → UInt8
  capacity : UInt32
  count : UInt32
  head : UInt32
  tail : UInt32

namespace PosixStreamBuffer
variable (sb : PosixStreamBuffer)

/-- `bm_stream_buffer_create`, with what `calloc` and `malloc` return. -/
def create (maxSize : UInt32) (sb : Bool) (storage : Option (Nat → UInt8)) :
    Option PosixStreamBuffer :=
  if sb then storage.map fun storage => ⟨storage, maxSize, 0, 0, 0⟩ else none

/-- The loop of `bm_stream_buffer_send` that stores `toWrite` bytes, and the addition to `count`
behind it. -/
def store (src : Nat → UInt8) (toWrite : UInt32) : PosixStreamBuffer :=
  let (storage, tail) := (List.range toWrite.toNat).foldl (fun (storage, tail) i =>
    (Function.update storage tail.toNat (src i), (tail + 1) % sb.capacity)) (sb.storage, sb.tail)
  { sb with storage, tail, count := sb.count + toWrite }

/-- `to_write` -/
def toWrite (size written : UInt32) : UInt32 :=
  let avail := sb.capacity - sb.count
  if size - written > avail then avail else size - written

theorem toWrite_toNat {size written : UInt32} (hwritten : written < size)
    (hcount : sb.count ≤ sb.capacity) :
    (sb.toWrite size written).toNat =
      min (size.toNat - written.toNat) (sb.capacity.toNat - sb.count.toNat) := by
  have hrest : (size - written).toNat = size.toNat - written.toNat :=
    UInt32.toNat_sub_of_le _ _ (UInt32.le_of_lt hwritten)
  have havail : (sb.capacity - sb.count).toNat = sb.capacity.toNat - sb.count.toNat :=
    UInt32.toNat_sub_of_le _ _ hcount
  simp only [toWrite, gt_iff_lt, UInt32.lt_iff_toNat_lt, hrest, havail]
  split_ifs with hlt
  · rw [havail]
    omega
  · rw [hrest]
    omega

/-- A round of the loop gets on. -/
theorem toWrite_decreasing {size written : UInt32} (hwritten : written < size)
    (hroom : sb.count ≠ sb.capacity) :
    (size - (written + sb.toWrite size written)).toNat < (size - written).toNat := by
  have hrest : (size - written).toNat = size.toNat - written.toNat :=
    UInt32.toNat_sub_of_le _ _ (UInt32.le_of_lt hwritten)
  have hlt := UInt32.lt_iff_toNat_lt.mp hwritten
  have havail : sb.capacity - sb.count ≠ 0 := by
    intro hzero
    apply hroom
    grind
  have hle : sb.toWrite size written ≤ size - written := by
    simp only [toWrite]
    split_ifs with hgt
    · exact UInt32.le_of_lt hgt
    · exact UInt32.le_refl _
  have hpos : 0 < (sb.toWrite size written).toNat := by
    simp only [toWrite]
    split_ifs with hgt
    · exact UInt32.lt_iff_toNat_lt.mp (UInt32.pos_iff_ne_zero.mpr havail)
    · omega
  have hsub : size - (written + sb.toWrite size written) =
      size - written - sb.toWrite size written := by grind
  have hle' := UInt32.le_iff_toNat_le.mp hle
  rw [hsub, UInt32.toNat_sub_of_le _ _ hle]
  omega

/-- The loop of `bm_stream_buffer_send` from `written` on, until it returns or waits for room: the
error code if it returns, `written` and the buffer. -/
def sendLoop (sb : PosixStreamBuffer) (data : Nat → UInt8) (size timeoutMs written : UInt32) :
    Option BmErr × UInt32 × PosixStreamBuffer :=
  if _ : written < size then
    if _ : sb.count = sb.capacity then
      if timeoutMs = 0 then (some .enomem, written, sb) else (none, written, sb)
    else
      let n := sb.toWrite size written
      sendLoop (sb.store (fun i => data (written.toNat + i)) n) data size timeoutMs (written + n)
  else (some .ok, written, sb)
termination_by (size - written).toNat
decreasing_by exact sb.toWrite_decreasing ‹_› ‹_›

/-- The rest of `bm_stream_buffer_receive` once it holds the lock: what it returns, unless it waits
for bytes, with what is behind `data` and the value of `*size`. -/
def receiveLocked (data : Nat → UInt8) (maxRead timeoutMs : UInt32) :
    Option (BmErr × (Nat → UInt8) × UInt32) × PosixStreamBuffer :=
  if sb.count = 0 then
    if timeoutMs = 0 then (some (.etimedout, data, 0), sb) else (none, sb)
  else
    let toRead := if sb.count > maxRead then maxRead else sb.count
    let (data, head) := (List.range toRead.toNat).foldl (fun (data, head) i =>
      (Function.update data i (sb.storage head.toNat), (head + 1) % sb.capacity)) (data, sb.head)
    (some (.ok, data, toRead), { sb with head, count := sb.count - toRead })

/-- The bytes in the buffer, oldest first. -/
def content : List UInt8 :=
  ringContent sb.capacity.toNat sb.storage sb.head.toNat sb.count.toNat

/-- The relation between the indices. A buffer without capacity is never written. -/
structure Inv (sb : PosixStreamBuffer) : Prop where
  count_le : sb.count ≤ sb.capacity
  head_lt : sb.capacity ≠ 0 → sb.head.toNat < sb.capacity.toNat
  tail : sb.tail.toNat = (sb.head.toNat + sb.count.toNat) % sb.capacity.toNat

/-- The bytes the buffer can still take. -/
def room : Nat := sb.capacity.toNat - sb.count.toNat

variable {sb} {data src : Nat → UInt8} {size timeoutMs written n : UInt32}

@[simp] theorem content_length : sb.content.length = sb.count.toNat := by simp [content]

@[simp] theorem store_capacity : (sb.store src n).capacity = sb.capacity := rfl

@[simp] theorem store_count : (sb.store src n).count = sb.count + n := rfl

namespace Inv

theorem count_eq_zero (h : Inv sb) (hzero : sb.capacity = 0) : sb.count = 0 := by
  have hle := UInt32.le_iff_toNat_le.mp h.count_le
  rw [hzero, UInt32.toNat_zero] at hle
  exact UInt32.toNat_inj.mp (Nat.le_zero.mp hle)

/-- Storing what there is room for appends it. -/
theorem store (h : Inv sb) (hcap : sb.capacity ≠ 0) (src : Nat → UInt8)
    (hn : n.toNat ≤ sb.room) :
    Inv (sb.store src n) ∧ (sb.count + n).toNat = sb.count.toNat + n.toNat ∧
      (sb.store src n).content = sb.content ++ (List.range n.toNat).map src := by
  have hle := UInt32.le_iff_toNat_le.mp h.count_le
  have hcapacity := sb.capacity.toNat_lt
  have hhead := h.head_lt hcap
  have hcount : (sb.count + n).toNat = sb.count.toNat + n.toNat := by
    rw [UInt32.toNat_add]
    rw [room] at hn
    omega
  have htail : sb.tail.toNat < sb.capacity.toNat :=
    h.tail ▸ Nat.mod_lt _ (Nat.zero_lt_of_lt hhead)
  have hwrite : sb.store src n = { sb with
      storage := ((RingIndex.uint32 sb.capacity).write src n.toNat sb.storage sb.tail).1
      tail := ((RingIndex.uint32 sb.capacity).write src n.toNat sb.storage sb.tail).2
      count := sb.count + n } := rfl
  have hfits : sb.count.toNat + n.toNat ≤ sb.capacity.toNat := by
    rw [room] at hn
    omega
  refine ⟨⟨?_, h.head_lt, ?_⟩, hcount, ?_⟩
  · rw [store_count, store_capacity, UInt32.le_iff_toNat_le, hcount]
    exact hfits
  · have hpos := (RingIndex.uint32 sb.capacity).write_pos htail src sb.storage
      n.toNat
    rw [store_count, hcount, hwrite]
    refine hpos.trans ?_
    change (sb.tail.toNat + n.toNat) % _ = _
    rw [h.tail, Nat.mod_add_mod, Nat.add_assoc]
  · rw [hwrite]
    simp only [content, hcount]
    exact RingIndex.write_content h.tail (Nat.zero_lt_of_lt hhead) hfits

/-- A send stores what there is room for. It returns `BmOK` if that is all of it; else it waits, or
gives up where it has no time to wait. -/
theorem sendLoop (h : Inv sb) (hwritten : written ≤ size) (data : Nat → UInt8)
    (timeoutMs : UInt32) :
    let rest := size.toNat - written.toNat
    let r := sb.sendLoop data size timeoutMs written
    (r.1 = if rest ≤ sb.room then some .ok else if timeoutMs = 0 then some .enomem else none) ∧
      r.2.1.toNat = written.toNat + min rest sb.room ∧ Inv r.2.2 ∧
      r.2.2.content = sb.content ++ peek data written.toNat (min rest sb.room) := by
  fun_induction PosixStreamBuffer.sendLoop sb data size timeoutMs written with
  | case1 sb written hlt hfull htimeout =>
    have hlt' := UInt32.lt_iff_toNat_lt.mp hlt
    have hroom : sb.room = 0 := by simp [room, hfull]
    have hrest : ¬size.toNat - written.toNat ≤ 0 := by omega
    simp [hroom, hrest, htimeout, h]
  | case2 sb written hlt hfull htimeout =>
    have hlt' := UInt32.lt_iff_toNat_lt.mp hlt
    have hroom : sb.room = 0 := by simp [room, hfull]
    have hrest : ¬size.toNat - written.toNat ≤ 0 := by omega
    simp [hroom, hrest, htimeout, h]
  | case3 sb written hlt hfull n ih =>
    have hlt' := UInt32.lt_iff_toNat_lt.mp hlt
    have hsize := size.toNat_lt
    have hmin : n.toNat = min (size.toNat - written.toNat) sb.room :=
      sb.toWrite_toNat hlt h.count_le
    have hnext : (written + n).toNat = written.toNat + n.toNat := by
      rw [UInt32.toNat_add]
      omega
    have hcap : sb.capacity ≠ 0 := by
      intro hzero
      exact hfull ((h.count_eq_zero hzero).trans hzero.symm)
    obtain ⟨hstored, hcount, hcontent⟩ :=
      h.store hcap (fun i => data (written.toNat + i)) (hmin ▸ Nat.min_le_right _ _)
    have hroom : (sb.store (fun i => data (written.toNat + i)) n).room = sb.room - n.toNat := by
      simp only [room, store_capacity, store_count, hcount]
      omega
    obtain ⟨hcode, hwritten', hinv, hcontent'⟩ := ih hstored (by
      rw [UInt32.le_iff_toNat_le]
      omega)
    -- one round leaves nothing to store or no room for it
    have hdone : min (size.toNat - (written + n).toNat) (sb.room - n.toNat) = 0 := by omega
    rw [hroom] at hcode hwritten' hcontent'
    rw [hdone] at hwritten' hcontent'
    have hfits : size.toNat - (written + n).toNat ≤ sb.room - n.toNat ↔
        size.toNat - written.toNat ≤ sb.room := by omega
    refine ⟨?_, ?_, hinv, ?_⟩
    · rw [hcode]
      simp only [hfits]
    · rw [hwritten', hnext, hmin, Nat.add_zero]
    · rw [hcontent', hcontent, peek_zero, List.append_nil, hmin]
      rfl
  | case4 sb written hge =>
    have hle := UInt32.le_iff_toNat_le.mp (UInt32.not_lt.mp hge)
    have hrest : size.toNat - written.toNat = 0 := by omega
    simp [hrest, h]

/-- Going on to the bytes behind the first `toRead`. -/
theorem take (h : Inv sb) {head toRead : UInt32} (hread : toRead ≤ sb.count)
    (hhead : head.toNat = (sb.head.toNat + toRead.toNat) % sb.capacity.toNat) :
    Inv { sb with head, count := sb.count - toRead } ∧ sb.content =
      ringContent sb.capacity.toNat sb.storage sb.head.toNat toRead.toNat ++
        content { sb with head, count := sb.count - toRead } := by
  have hle := UInt32.le_iff_toNat_le.mp h.count_le
  have hread' := UInt32.le_iff_toNat_le.mp hread
  have hrest : (sb.count - toRead).toNat = sb.count.toNat - toRead.toNat :=
    UInt32.toNat_sub_of_le _ _ hread
  have hsplit : sb.count.toNat = toRead.toNat + (sb.count.toNat - toRead.toNat) := by omega
  refine ⟨⟨?_, fun hcap => ?_, ?_⟩, ?_⟩
  · rw [UInt32.le_iff_toNat_le]
    exact hrest ▸ (Nat.sub_le _ _).trans hle
  · rw [hhead]
    exact Nat.mod_lt _ (Nat.zero_lt_of_lt (h.head_lt hcap))
  · rw [h.tail, hsplit, hhead, hrest, Nat.mod_add_mod, Nat.add_assoc]
  · simp only [content, hhead, hrest, ringContent_mod]
    rw [← ringContent_add, ← hsplit]

/-- A receive takes the oldest bytes. -/
theorem receiveLocked (h : Inv sb) (hcount : sb.count ≠ 0) (data : Nat → UInt8)
    (maxRead timeoutMs : UInt32) :
    ∃ data' toRead sb', sb.receiveLocked data maxRead timeoutMs =
        (some (.ok, data', toRead), sb') ∧ Inv sb' ∧
      sb.content = peek data' 0 toRead.toNat ++ sb'.content := by
  have hcap : sb.capacity ≠ 0 := by
    intro hzero
    exact hcount (h.count_eq_zero hzero)
  have hhead := h.head_lt hcap
  let toRead := if sb.count > maxRead then maxRead else sb.count
  let r := (RingIndex.uint32 sb.capacity).read sb.storage toRead.toNat data sb.head
  have heq : sb.receiveLocked data maxRead timeoutMs =
      (some (.ok, r.1, toRead), { sb with head := r.2, count := sb.count - toRead }) := by
    rw [PosixStreamBuffer.receiveLocked, if_neg hcount]
    rfl
  have hread : toRead ≤ sb.count := by
    simp only [toRead]
    split_ifs with hgt
    · exact UInt32.le_of_lt hgt
    · exact UInt32.le_refl _
  have hpos : r.2.toNat = (sb.head.toNat + toRead.toNat) % sb.capacity.toNat :=
    (RingIndex.uint32 sb.capacity).read_pos hhead sb.storage data toRead.toNat
  obtain ⟨hinv, hcontent⟩ := h.take hread hpos
  have hbytes : peek r.1 0 toRead.toNat =
      ringContent sb.capacity.toNat sb.storage sb.head.toNat toRead.toNat := by
    simp only [peek, Nat.zero_add]
    exact (RingIndex.uint32 sb.capacity).read_content hhead sb.storage data toRead.toNat
  exact ⟨r.1, toRead, _, heq, hinv, hbytes ▸ hcontent⟩

end Inv

end PosixStreamBuffer

/-! ## Runs of the POSIX port -/

/-- A call of `bm_stream_buffer_send` that waits for room. -/
structure PendingSend where
  data : Nat → UInt8
  size : UInt32
  timeoutMs : UInt32
  written : UInt32

/-- A call of `bm_stream_buffer_receive` that waits for bytes. -/
structure PendingReceive where
  data : Nat → UInt8
  maxRead : UInt32
  timeoutMs : UInt32

/-- A buffer between its producer and its consumer: the calls that wait, the data of the sends that
have returned `BmOK` and the bytes that have been received. -/
structure PosixStream where
  sb : PosixStreamBuffer
  sending : Option PendingSend
  receiving : Option PendingReceive
  sent : List UInt8
  received : List UInt8

/-- What the producer and the consumer do. A call that waits wakes up with the lock;
`expired` says that `pthread_cond_timedwait` has timed out. -/
inductive StreamMove where
  | send (data : Option (Nat → UInt8)) (size timeoutMs : UInt32)
  | sendWakes (expired : Bool)
  | receive (data : Option (Nat → UInt8)) (size : Option UInt32) (timeoutMs : UInt32)
  | receiveWakes (expired : Bool)

namespace PosixStream
variable (s : PosixStream)

/-- A send of `size` bytes returns, or waits with `written` of them stored. -/
def sendEnds (data : Nat → UInt8) (size timeoutMs : UInt32) :
    Option BmErr × UInt32 × PosixStreamBuffer → PosixStream
  | (none, written, sb) => { s with sb, sending := some ⟨data, size, timeoutMs, written⟩ }
  | (some err, _, sb) => { s with
      sb
      sending := none
      sent := if err = .ok then s.sent ++ peek data 0 size.toNat else s.sent }

/-- A receive returns with the first bytes of `data`, or waits. -/
def receiveEnds (data : Nat → UInt8) (maxRead timeoutMs : UInt32) :
    Option (BmErr × (Nat → UInt8) × UInt32) × PosixStreamBuffer → PosixStream
  | (none, sb) => { s with sb, receiving := some ⟨data, maxRead, timeoutMs⟩ }
  | (some (_, data, size), sb) => { s with
      sb
      receiving := none
      received := s.received ++ peek data 0 size.toNat }

/-- `bm_stream_buffer_send` and `bm_stream_buffer_receive`, up to where they return or wait. There
is one producer and one consumer: neither calls again before its call has returned. -/
def step : StreamMove → PosixStream
  | .send none _ _ => s
  | .send (some data) size timeoutMs =>
    match s.sending with
    | some _ => s
    | none => s.sendEnds data size timeoutMs (s.sb.sendLoop data size timeoutMs 0)
  | .sendWakes expired =>
    match s.sending with
    | none => s
    | some p =>
      if expired ∧ p.timeoutMs ≠ 0xFFFFFFFF then
        s.sendEnds p.data p.size p.timeoutMs (some .etimedout, p.written, s.sb)
      else
        s.sendEnds p.data p.size p.timeoutMs (s.sb.sendLoop p.data p.size p.timeoutMs p.written)
  | .receive (some data) (some maxRead) timeoutMs =>
    match s.receiving with
    | some _ => s
    | none => s.receiveEnds data maxRead timeoutMs (s.sb.receiveLocked data maxRead timeoutMs)
  | .receive _ _ _ => s
  | .receiveWakes expired =>
    match s.receiving with
    | none => s
    | some p =>
      if expired ∧ p.timeoutMs ≠ 0xFFFFFFFF then
        s.receiveEnds p.data p.maxRead p.timeoutMs (some (.etimedout, p.data, 0), s.sb)
      else
        s.receiveEnds p.data p.maxRead p.timeoutMs
          (s.sb.receiveLocked p.data p.maxRead p.timeoutMs)

/-- A buffer nobody has used yet. -/
def start (sb : PosixStreamBuffer) : PosixStream := ⟨sb, none, none, [], []⟩

/-- What the send in progress has stored so far. -/
def inFlight : List UInt8 :=
  match s.sending with
  | none => []
  | some p => peek p.data 0 p.written.toNat

/-- What has been received and what is still stored is, in order and without gap or repetition, the
data of the sends that have returned `BmOK`, and of the one in progress what it has stored. -/
def InOrder : Prop := s.received ++ s.sb.content = s.sent ++ s.inFlight

/-- A send that gives up has stored nothing: one that has no time to wait fits or finds no room at
all, one that runs out of time has not stored a piece before. -/
def GivesUpEmpty : StreamMove → Prop
  | .send (some _) size timeoutMs =>
    s.sending = none → timeoutMs = 0 → size.toNat ≤ s.sb.room ∨ s.sb.room = 0
  | .sendWakes expired =>
    ∀ p ∈ s.sending, expired → p.timeoutMs = 0xFFFFFFFF ∨ p.written = 0
  | _ => True

variable {s} {data : Nat → UInt8} {size timeoutMs written : UInt32}

/-- What every step keeps: a call that waits for room has time to wait. -/
structure Inv (s : PosixStream) : Prop where
  sb : s.sb.Inv
  sending : ∀ p ∈ s.sending, p.written ≤ p.size ∧ p.timeoutMs ≠ 0

/-- A send that waits keeps the order, one that returns `BmOK` has to have stored everything and one
that returns an error nothing. -/
theorem sendEnds_inOrder {sb : PosixStreamBuffer}
    (hstored : s.received ++ sb.content = s.sent ++ peek data 0 written.toNat) :
    InOrder (s.sendEnds data size timeoutMs (none, written, sb)) ∧
      (written = size → InOrder (s.sendEnds data size timeoutMs (some .ok, written, sb))) ∧
      ∀ err, err ≠ .ok →
        (InOrder (s.sendEnds data size timeoutMs (some err, written, sb)) ↔ written = 0) := by
  refine ⟨hstored, ?_, ?_⟩
  · rintro rfl
    simpa [InOrder, sendEnds, inFlight] using hstored
  · intro err herr
    simp only [InOrder, sendEnds, inFlight, if_neg herr, List.append_nil]
    constructor
    · intro hsent
      have hlength := congrArg List.length (hstored.symm.trans hsent)
      rw [List.length_append, peek_length] at hlength
      exact UInt32.toNat_inj.mp (by rw [UInt32.toNat_zero]; omega)
    · rintro rfl
      simpa using hstored

/-- A send goes on from `written`: the order is kept unless it has no time to wait and gives up with
something stored. -/
theorem sendEnds_sendLoop (h : Inv s) (hwritten : written ≤ size) (data : Nat → UInt8)
    (timeoutMs : UInt32) :
    let s' := s.sendEnds data size timeoutMs (s.sb.sendLoop data size timeoutMs written)
    Inv s' ∧ (s.received ++ s.sb.content = s.sent ++ peek data 0 written.toNat →
      (InOrder s' ↔ (timeoutMs = 0 → size.toNat - written.toNat ≤ s.sb.room ∨
        written.toNat + s.sb.room = 0))) := by
  have hle := UInt32.le_iff_toNat_le.mp hwritten
  have hspec := h.sb.sendLoop hwritten data timeoutMs
  generalize s.sb.sendLoop data size timeoutMs written = r at hspec ⊢
  obtain ⟨code, written', sb'⟩ := r
  obtain ⟨hcode, hwritten', hinv, hcontent⟩ := hspec
  dsimp only at hcode hwritten' hinv hcontent ⊢
  have hle' : written' ≤ size := by
    rw [UInt32.le_iff_toNat_le]
    omega
  have hstored : s.received ++ s.sb.content = s.sent ++ peek data 0 written.toNat →
      s.received ++ sb'.content = s.sent ++ peek data 0 written'.toNat := by
    intro hbefore
    rw [hcontent, ← List.append_assoc, hbefore, hwritten', peek_add, Nat.zero_add,
      List.append_assoc]
  split_ifs at hcode with hfits htimeout
  · subst hcode
    refine ⟨⟨hinv, by simp [sendEnds]⟩, fun hbefore => ?_⟩
    have hall : written' = size := UInt32.toNat_inj.mp (by omega)
    simp [(sendEnds_inOrder (hstored hbefore)).2.1 hall, hfits]
  · subst hcode
    refine ⟨⟨hinv, by simp [sendEnds]⟩, fun hbefore => ?_⟩
    rw [(sendEnds_inOrder (hstored hbefore)).2.2 .enomem (by decide), ← UInt32.toNat_inj,
      UInt32.toNat_zero, hwritten']
    simp only [htimeout, forall_const]
    omega
  · subst hcode
    refine ⟨⟨hinv, ?_⟩, fun hbefore => ?_⟩
    · simp [sendEnds, hle', htimeout]
    · simp [(sendEnds_inOrder (hstored hbefore)).1, htimeout]

/-- A receive goes on: the order is kept. -/
theorem receiveEnds_receiveLocked (h : Inv s) (data : Nat → UInt8) (maxRead timeoutMs : UInt32) :
    let s' := s.receiveEnds data maxRead timeoutMs (s.sb.receiveLocked data maxRead timeoutMs)
    Inv s' ∧ (InOrder s → InOrder s') := by
  by_cases hcount : s.sb.count = 0
  · have heq : s.sb.receiveLocked data maxRead timeoutMs =
        (if timeoutMs = 0 then some (.etimedout, data, 0) else none, s.sb) := by
      rw [PosixStreamBuffer.receiveLocked, if_pos hcount]
      split_ifs <;> rfl
    rw [heq]
    split_ifs
    · exact ⟨⟨h.sb, h.sending⟩, by simp [InOrder, receiveEnds, inFlight]⟩
    · exact ⟨⟨h.sb, h.sending⟩, id⟩
  · obtain ⟨data', toRead, sb', heq, hinv, hcontent⟩ :=
      h.sb.receiveLocked hcount data maxRead timeoutMs
    rw [heq]
    refine ⟨⟨hinv, h.sending⟩, fun horder => ?_⟩
    rw [InOrder, hcontent, ← List.append_assoc] at horder
    exact horder

/-- A step keeps the order just when a send that gives up in it has stored nothing. -/
theorem step_spec (h : Inv s) (move : StreamMove) :
    Inv (s.step move) ∧ (InOrder s → (InOrder (s.step move) ↔ GivesUpEmpty s move)) := by
  cases move with
  | send data size timeoutMs =>
    cases data with
    | none => exact ⟨h, fun horder => iff_of_true horder trivial⟩
    | some data =>
      cases hsending : s.sending with
      | some p =>
        simp only [step, GivesUpEmpty, hsending]
        exact ⟨h, fun horder => iff_of_true horder (by simp)⟩
      | none =>
        obtain ⟨hinv, horder⟩ := sendEnds_sendLoop h (UInt32.zero_le : 0 ≤ size) data timeoutMs
        simp only [step, GivesUpEmpty, hsending, forall_const]
        refine ⟨hinv, fun hbefore => ?_⟩
        simpa using horder (by simpa [InOrder, inFlight, hsending] using hbefore)
  | sendWakes expired =>
    cases hsending : s.sending with
    | none =>
      simp only [step, GivesUpEmpty, hsending]
      exact ⟨h, fun horder => iff_of_true horder (by simp)⟩
    | some p =>
      obtain ⟨hwritten, htimeout⟩ := h.sending p hsending
      simp only [step, GivesUpEmpty, hsending, Option.mem_some, forall_eq']
      have hstored : InOrder s →
          s.received ++ s.sb.content = s.sent ++ peek p.data 0 p.written.toNat := by
        intro hbefore
        simpa [InOrder, inFlight, hsending] using hbefore
      split_ifs with hgive
      · refine ⟨⟨h.sb, by simp [sendEnds]⟩, fun hbefore => ?_⟩
        rw [(sendEnds_inOrder (hstored hbefore)).2.2 .etimedout (by decide)]
        simp [hgive.1, hgive.2]
      · obtain ⟨hinv, horder⟩ := sendEnds_sendLoop h hwritten p.data p.timeoutMs
        refine ⟨hinv, fun hbefore => ?_⟩
        rw [horder (hstored hbefore)]
        have hforever : expired → p.timeoutMs = 0xFFFFFFFF := by
          intro hexpired
          by_contra hne
          exact hgive ⟨hexpired, hne⟩
        simp only [htimeout, false_imp_iff, true_iff]
        exact fun hexpired => .inl (hforever hexpired)
  | receive data size timeoutMs =>
    suffices hkept : Inv (s.step (.receive data size timeoutMs)) ∧
        (InOrder s → InOrder (s.step (.receive data size timeoutMs))) from
      ⟨hkept.1, fun hbefore => iff_of_true (hkept.2 hbefore) trivial⟩
    cases data with
    | none => exact ⟨h, id⟩
    | some data =>
      cases size with
      | none => exact ⟨h, id⟩
      | some maxRead =>
        simp only [step]
        split
        · exact ⟨h, id⟩
        · exact receiveEnds_receiveLocked h data maxRead timeoutMs
  | receiveWakes expired =>
    suffices hkept : Inv (s.step (.receiveWakes expired)) ∧
        (InOrder s → InOrder (s.step (.receiveWakes expired))) from
      ⟨hkept.1, fun hbefore => iff_of_true (hkept.2 hbefore) trivial⟩
    simp only [step]
    split
    · exact ⟨h, id⟩
    · next p _ =>
      split_ifs
      · exact ⟨⟨h.sb, h.sending⟩, by simp [InOrder, receiveEnds, inFlight]⟩
      · exact receiveEnds_receiveLocked h p.data p.maxRead p.timeoutMs

/-- A new buffer is empty and nobody waits. -/
theorem start_spec {maxSize : UInt32} {ok : Bool} {storage : Option (Nat → UInt8)}
    {sb : PosixStreamBuffer} (hsb : PosixStreamBuffer.create maxSize ok storage = some sb) :
    Inv (start sb) ∧ InOrder (start sb) := by
  unfold PosixStreamBuffer.create at hsb
  split_ifs at hsb
  obtain ⟨storage, -, rfl⟩ := Option.map_eq_some_iff.mp hsb
  refine ⟨⟨⟨UInt32.zero_le, ?_, by simp [start]⟩, by simp [start]⟩, rfl⟩
  intro hcap
  exact UInt32.lt_iff_toNat_lt.mp (UInt32.pos_iff_ne_zero.mpr hcap)

end PosixStream

/-! ## Runs of the FreeRTOS port -/

/-- The stream buffers of FreeRTOS as the port relies on them: `xStreamBufferSend` stores the first
bytes of the data and returns how many, `xStreamBufferReceive` takes the oldest ones. What the two
find when they get to it depends on the moment. -/
structure StreamBufferApi (Handle Moment : Type) where
  stored : Handle → List UInt8
  pdMsToTicks : UInt32 → UInt32
  xStreamBufferSend : Moment → Handle → (data : List UInt8) → (ticks : UInt32) → Nat × Handle
  xStreamBufferReceive : Moment → Handle → (size ticks : UInt32) → List UInt8 × Handle
  send_le : ∀ m h data ticks, (xStreamBufferSend m h data ticks).1 ≤ data.length
  stored_send : ∀ m h data ticks, stored (xStreamBufferSend m h data ticks).2 =
    stored h ++ data.take (xStreamBufferSend m h data ticks).1
  stored_receive : ∀ m h size ticks, (xStreamBufferReceive m h size ticks).1 ++
    stored (xStreamBufferReceive m h size ticks).2 = stored h

namespace StreamBufferApi
variable {Handle Moment : Type} (api : StreamBufferApi Handle Moment)

/-- `bm_stream_buffer_send` of `bm_freertos.c` -/
def bmStreamBufferSend (m : Moment) (buf : Handle) (data : Nat → UInt8) (size timeoutMs : UInt32) :
    BmErr × Handle :=
  let (_, buf) := api.xStreamBufferSend m buf (peek data 0 size.toNat) (api.pdMsToTicks timeoutMs)
  (.ok, buf)

/-- `bm_stream_buffer_receive` of `bm_freertos.c`, with the bytes that are received. -/
def bmStreamBufferReceive (m : Moment) (buf : Handle) (size timeoutMs : UInt32) :
    BmErr × List UInt8 × Handle :=
  (.ok, api.xStreamBufferReceive m buf size (api.pdMsToTicks timeoutMs))

end StreamBufferApi

/-- A buffer of the FreeRTOS port with the data of the sends that have returned `BmOK` and the bytes
that have been received. -/
structure RtosStream (Handle : Type) where
  buf : Handle
  sent : List UInt8
  received : List UInt8

/-- A call that gets to the buffer at a moment. -/
inductive RtosCall (Moment : Type) where
  | send (m : Moment) (data : Nat → UInt8) (size timeoutMs : UInt32)
  | receive (m : Moment) (size timeoutMs : UInt32)

namespace RtosStream
variable {Handle Moment : Type} (api : StreamBufferApi Handle Moment) (s : RtosStream Handle)

def step : RtosCall Moment → RtosStream Handle
  | .send m data size timeoutMs =>
    let (err, buf) := api.bmStreamBufferSend m s.buf data size timeoutMs
    { s with buf, sent := if err = .ok then s.sent ++ peek data 0 size.toNat else s.sent }
  | .receive m size timeoutMs =>
    let (_, bytes, buf) := api.bmStreamBufferReceive m s.buf size timeoutMs
    { s with buf, received := s.received ++ bytes }

/-- A buffer nobody has used yet. -/
def start (buf : Handle) : RtosStream Handle := ⟨buf, [], []⟩

/-- What has been received and what is still stored is, in order and without gap or repetition, the
data of the sends that have returned `BmOK`. -/
def InOrder : Prop := s.received ++ api.stored s.buf = s.sent

/-- `xStreamBufferSend` stores everything. -/
def StoresAll : RtosCall Moment → Prop
  | .send m data size timeoutMs =>
    (api.xStreamBufferSend m s.buf (peek data 0 size.toNat) (api.pdMsToTicks timeoutMs)).1 =
      size.toNat
  | .receive _ _ _ => True

variable {api} {s}

/-- A step keeps the order just when `xStreamBufferSend` has stored everything. -/
theorem step_spec (horder : InOrder api s) (call : RtosCall Moment) :
    InOrder api (s.step api call) ↔ StoresAll api s call := by
  cases call with
  | send m data size timeoutMs =>
    have hle := api.send_le m s.buf (peek data 0 size.toNat) (api.pdMsToTicks timeoutMs)
    simp only [InOrder, step, StreamBufferApi.bmStreamBufferSend, if_true, api.stored_send,
      StoresAll, ← List.append_assoc]
    rw [show s.received ++ api.stored s.buf = s.sent from horder, List.append_cancel_left_eq]
    constructor
    · intro htake
      have hlength := congrArg List.length htake
      rw [List.length_take, peek_length] at hlength
      rw [peek_length] at hle
      omega
    · intro hall
      exact List.take_of_length_le (by rw [hall, peek_length])
  | receive m size timeoutMs =>
    refine iff_of_true ?_ trivial
    simp only [InOrder, step, StreamBufferApi.bmStreamBufferReceive, List.append_assoc,
      api.stored_receive]
    exact horder

end RtosStream

/-- A stream buffer of `capacity` bytes that nobody else uses during a call. -/
def boundedApi (capacity : Nat) : StreamBufferApi (List UInt8) Unit where
  stored := id
  pdMsToTicks := id
  xStreamBufferSend := fun _ h data _ =>
    (min data.length (capacity - h.length), h ++ data.take (min data.length (capacity - h.length)))
  xStreamBufferReceive := fun _ h size _ => (h.take size.toNat, h.drop size.toNat)
  send_le := fun _ _ _ _ => Nat.min_le_left _ _
  stored_send := fun _ _ _ _ => rfl
  stored_receive := fun _ _ _ _ => List.take_append_drop _ _

/-- **When stream buffers keep the order.** In every state of a run the bytes received and those
still stored are the data of the sends that returned `BmOK`, just when, in the POSIX port, no send
gives up with something stored and, in the FreeRTOS port, `xStreamBufferSend` stores everything. -/
theorem stream_buffer_inOrder_iff {maxSize : UInt32} {ok : Bool}
    {storage : Option (Nat → UInt8)} {sb : PosixStreamBuffer}
    (hsb : PosixStreamBuffer.create maxSize ok storage = some sb) (moves : List StreamMove)
    {Handle Moment : Type} (api : StreamBufferApi Handle Moment) {buf : Handle}
    (hempty : api.stored buf = []) (calls : List (RtosCall Moment)) :
    (Along PosixStream.step (fun s move => (s.step move).InOrder) (.start sb) moves ↔
      Along PosixStream.step PosixStream.GivesUpEmpty (.start sb) moves) ∧
    (Along (RtosStream.step api) (fun s call => (s.step api call).InOrder api) (.start buf) calls ↔
      Along (RtosStream.step api) (RtosStream.StoresAll api) (.start buf) calls) := by
  constructor
  · obtain ⟨hinv, horder⟩ := PosixStream.start_spec hsb
    have hkept : ∀ (s : PosixStream) (move : StreamMove), s.Inv → (s.step move).Inv :=
      fun s move h => (PosixStream.step_spec h move).1
    have hstep : ∀ (s : PosixStream) (move : StreamMove), s.Inv → s.InOrder →
        ((s.step move).InOrder ↔ s.GivesUpEmpty move) :=
      fun s move h => (PosixStream.step_spec h move).2
    exact along_invariant_iff hkept hstep hinv horder
  · have horder : (RtosStream.start buf).InOrder api := hempty
    have hstep : ∀ (s : RtosStream Handle) (call : RtosCall Moment), True → s.InOrder api →
        ((s.step api call).InOrder api ↔ s.StoresAll api call) :=
      fun s call _ h => RtosStream.step_spec h call
    exact @along_invariant_iff _ _ (RtosStream.step api) (RtosStream.StoresAll api)
      (fun _ => True) (RtosStream.InOrder api) (fun _ _ h => h) hstep (.start buf) calls trivial
      horder

/-- Three bytes go through a buffer that has room for four. -/
theorem stream_buffer_inOrder_four :
    let sb : PosixStreamBuffer := ⟨fun _ => 0, 4, 0, 0, 0⟩
    let data : Nat → UInt8 := fun i => .ofNat i
    Along PosixStream.step (fun s move => (s.step move).InOrder) (.start sb)
        [.send data 3 0, .receive data (some 8) 0] ∧
      Along (RtosStream.step (boundedApi 4)) (fun s call => (s.step (boundedApi 4) call).InOrder
        (boundedApi 4)) (.start []) [.send () data 3 0, .receive () 8 0] := by
  intro sb data
  have hsb : PosixStreamBuffer.create 4 true (some fun _ => 0) = some sb := rfl
  have hboth := stream_buffer_inOrder_iff hsb [.send data 3 0, .receive data (some 8) 0]
    (boundedApi 4) (rfl : (boundedApi 4).stored [] = []) [.send () data 3 0, .receive () 8 0]
  exact ⟨hboth.1.mpr ⟨fun _ _ => .inl (by decide), trivial, trivial⟩,
    hboth.2.mpr ⟨rfl, trivial, trivial⟩⟩

/-- Three bytes are sent to a buffer for two. The POSIX port returns `BmENOMEM` and two of them are
received, the FreeRTOS port returns `BmOK` and one of them never is. -/
theorem not_stream_buffer_inOrder :
    let sb : PosixStreamBuffer := ⟨fun _ => 0, 2, 0, 0, 0⟩
    let data : Nat → UInt8 := fun i => .ofNat i
    let s := [StreamMove.send data 3 0, .receive data (some 2) 0].foldl PosixStream.step (.start sb)
    let t := [RtosCall.send () data 3 0, .receive () 2 0].foldl (RtosStream.step (boundedApi 2))
      (.start [])
    PosixStreamBuffer.create 2 true (some fun _ => 0) = some sb ∧
      (sb.sendLoop data 3 0 0).1 = some .enomem ∧ s.sent = [] ∧ s.received = [0, 1] ∧
      ¬s.InOrder ∧ t.sent = [0, 1, 2] ∧ t.received = [0, 1] ∧ t.buf = [] ∧
      ¬t.InOrder (boundedApi 2) := by
  intro sb data s t
  have hsent : sb.sendLoop data 3 0 0 = (some .enomem, 2, sb.store data 2) := by
    simp [sb, PosixStreamBuffer.sendLoop, PosixStreamBuffer.toWrite, PosixStreamBuffer.store]
  have hs : s.sending = none ∧ s.sent = [] ∧ s.received = [0, 1] := by
    simp only [s, List.foldl_cons, List.foldl_nil, PosixStream.step, PosixStream.start, hsent]
    exact ⟨rfl, rfl, rfl⟩
  have ht : t.sent = [0, 1, 2] ∧ t.received = [0, 1] ∧ t.buf = [] := ⟨rfl, rfl, rfl⟩
  refine ⟨rfl, congrArg Prod.fst hsent, hs.2.1, hs.2.2, ?_, ht.1, ht.2.1, ht.2.2, ?_⟩
  · simp [PosixStream.InOrder, PosixStream.inFlight, hs]
  · rw [RtosStream.InOrder, ht.1, ht.2.1, ht.2.2]
    decide

end BmCore
