import BmCore.Common.Util
import BmCore.Library.ByteOrder
import BmCore.Library.Ring
import BmCore.Library.Runs

/-!
# Byte queue

`common/q.c`: items of any length in a ring of bytes, each behind a header that holds its length.
The queue behaves as a list of byte strings that take four bytes more than they are long; the room
left in the ring is counted in bytes, and a full ring and an empty one have `head = tail` alike.
-/
namespace BmCore
open Library

/-- `Q`, with the bytes behind `buf` -/
structure Q where
  size : UInt32
  head : UInt32
  tail : UInt32
  count : UInt32
  buf : Nat → UInt8

/-- `sizeof(QItem)` -/
def sizeofQItem : Nat := 4

namespace Q
variable (q : Q) (o : ByteOrder)

/-- `q_get_free_space` -/
def getFreeSpace : UInt32 :=
  if q.head = q.tail then if q.count ≠ 0 then 0 else q.size
  else if q.head > q.tail then (q.size - q.head) + q.tail
  else q.tail - q.head

/-- `q_increment` -/
def increment (idx : UInt32) : UInt32 := (idx + 1) % q.size

/-- `q_create`, with what `bm_malloc` returns for the queue and for its buffer. -/
def create (size : UInt32) (queue : Bool) (buf : Option (Nat → UInt8)) : Option Q :=
  if size = 0 then none
  else if queue = false then none
  else match buf with
    | none => none
    | some buf => some ⟨size, 0, 0, 0, buf⟩

/-- `q_create_static` -/
def createStatic (buf : Option (Nat → UInt8)) (size : UInt32) : BmErr × Option Q :=
  match buf with
  | none => (.einval, none)
  | some buf => if size = 0 then (.einval, none) else (.ok, some ⟨size, 0, 0, 0, buf⟩)

/-- The loops of `q_enqueue`: `n` bytes go to where the head is. -/
def copyIn (src : Nat → UInt8) (n : Nat) : Q :=
  (List.range n).foldl (fun q i =>
    { q with buf := Function.update q.buf q.head.toNat (src i), head := q.increment q.head }) q

/-- The loops of `q_dequeue`: `n` bytes from `tail` on go to `dst`. -/
def copyOut (n : Nat) (dst : Nat → UInt8) (tail : UInt32) : (Nat → UInt8) × UInt32 :=
  (List.range n).foldl (fun (dst, tail) i =>
    (Function.update dst i (q.buf tail.toNat), q.increment tail)) (dst, tail)

/-- `QItem item = {size}`, as it lies in memory. -/
def qItem (size : UInt32) (i : Nat) : UInt8 := (o.bytes sizeofQItem size.toNat).getD i 0

/-- `q_enqueue`. -/
def enqueue (data : Option (Nat → UInt8)) (size : UInt32) : BmErr × Q :=
  match data with
  | none => (.einval, q)
  | some data =>
    if size = 0 then (.einval, q)
    -- `sizeof` makes the sum a `size_t`
    else if q.getFreeSpace.toNat < size.toNat + sizeofQItem then (.enomem, q)
    else
      let q := q.copyIn (qItem o size) sizeofQItem
      let q := q.copyIn data size.toNat
      (.ok, { q with count := q.count + 1 })

/-- `q_dequeue`, with what is behind `data` afterwards. -/
def dequeue (data : Option (Nat → UInt8)) (size : UInt32) : BmErr × Option (Nat → UInt8) × Q :=
  match data with
  | none => (.einval, none, q)
  | some data =>
    if size = 0 then (.einval, data, q)
    else if q.count = 0 then (.enodata, data, q)
    else
      let (item, tail) := q.copyOut sizeofQItem (fun _ => 0) q.tail
      let itemSize := o.nat (peek item 0 sizeofQItem)
      if itemSize > size.toNat then (.enomem, data, q)
      else
        let (data, tail) := q.copyOut itemSize data tail
        (.ok, data, { q with tail, count := q.count - 1 })

/-- `q_clear` -/
def clear : BmErr × Q := (.ok, { q with count := 0, head := 0, tail := 0 })

/-! ## The queue as a list of byte strings -/

/-- A call, with what is behind the caller's pointer. -/
inductive Call where
  | enqueue (data : Option (Nat → UInt8)) (size : UInt32)
  | dequeue (data : Option (Nat → UInt8)) (size : UInt32)
  | clear

/-- The error code of a call and what is behind the caller's pointer after it. -/
def step (q : Q) : Call → (BmErr × Option (Nat → UInt8)) × Q
  | .enqueue data size => (((q.enqueue o data size).1, data), (q.enqueue o data size).2)
  | .dequeue data size =>
    (((q.dequeue o data size).1, (q.dequeue o data size).2.1), (q.dequeue o data size).2.2)
  | .clear => ((q.clear.1, none), q.clear.2)

end Q

/-! ### The specification -/

namespace ByteFifo

/-- The bytes that the items take, each with its header. -/
def used (items : List (List UInt8)) : Nat := (items.map fun d => d.length + sizeofQItem).sum

/-- A queue of byte strings that may take up to `size` bytes. -/
def step (size : UInt32) (items : List (List UInt8)) :
    Q.Call → (BmErr × Option (Nat → UInt8)) × List (List UInt8)
  | .enqueue none _ => ((.einval, none), items)
  | .enqueue (some data) n =>
    if n = 0 then ((.einval, data), items)
    else if used (items ++ [peek data 0 n.toNat]) ≤ size.toNat then
      ((.ok, data), items ++ [peek data 0 n.toNat])
    else ((.enomem, data), items)
  | .dequeue none _ => ((.einval, none), items)
  | .dequeue (some data) n =>
    if n = 0 then ((.einval, data), items)
    else match items with
      | [] => ((.enodata, data), [])
      | d :: rest =>
        if d.length ≤ n.toNat then ((.ok, blit data 0 d), rest) else ((.enomem, data), d :: rest)
  | .clear => ((.ok, none), [])

variable {items : List (List UInt8)} {d : List UInt8}

@[simp] theorem used_nil : used [] = 0 := rfl

@[simp] theorem used_cons : used (d :: items) = d.length + sizeofQItem + used items := by
  simp [used]

@[simp] theorem used_append : used (items ++ [d]) = used items + (sizeofQItem + d.length) := by
  simp [used, Nat.add_comm]

/-- A call that returns an error leaves the items alone. -/
theorem step_of_err {size : UInt32} {call : Q.Call} (h : (step size items call).1.1 ≠ .ok) :
    (step size items call).2 = items := by
  revert h
  fun_cases step size items call <;> simp_all

end ByteFifo

/-! ### The ring holds the items -/

namespace Q
variable {o : ByteOrder} {q : Q} {items : List (List UInt8)}

/-- An item in the ring: its header and its bytes. -/
def itemBytes (o : ByteOrder) (d : List UInt8) : List UInt8 := o.bytes sizeofQItem d.length ++ d

/-- The ring holds `bytes` from the tail to the head. -/
structure Holds (q : Q) (bytes : List UInt8) : Prop where
  tail_lt : q.tail.toNat < q.size.toNat
  head : q.head.toNat = (q.tail.toNat + bytes.length) % q.size.toNat
  fits : bytes.length ≤ q.size.toNat
  content : ringContent q.size.toNat q.buf q.tail.toNat bytes.length = bytes

/-- The ring holds `items`, oldest first. -/
structure Rep (o : ByteOrder) (q : Q) (items : List (List UInt8)) : Prop extends
    Holds q (items.flatMap (itemBytes o)) where
  count : q.count.toNat = items.length

@[simp] theorem itemBytes_length (d : List UInt8) :
    (itemBytes o d).length = d.length + sizeofQItem := by
  simp [itemBytes, Nat.add_comm]

theorem length_flatMap (items : List (List UInt8)) :
    (items.flatMap (itemBytes o)).length = ByteFifo.used items := by
  simp [ByteFifo.used, List.length_flatMap]

/-- Every item takes at least its header. -/
theorem length_le_used (items : List (List UInt8)) :
    items.length * sizeofQItem ≤ ByteFifo.used items := by
  induction items with
  | nil => simp
  | cons d items ih =>
    simp only [List.length_cons, ByteFifo.used_cons, Nat.succ_mul]
    omega

theorem copyIn_eq (src : Nat → UInt8) (n : Nat) : q.copyIn src n =
    { q with
      buf := ((RingIndex.uint32 q.size).write src n q.buf q.head).1
      head := ((RingIndex.uint32 q.size).write src n q.buf q.head).2 } := by
  induction n with
  | zero => rfl
  | succ n ih =>
    have hsucc : q.copyIn src (n + 1) = { q.copyIn src n with
        buf := Function.update (q.copyIn src n).buf (q.copyIn src n).head.toNat (src n)
        head := (q.copyIn src n).increment (q.copyIn src n).head } := by
      simp [copyIn, List.range_succ]
    rw [hsucc, ih, RingIndex.write_succ]
    rfl

theorem copyOut_eq (n : Nat) (dst : Nat → UInt8) (tail : UInt32) :
    q.copyOut n dst tail = (RingIndex.uint32 q.size).read q.buf n dst tail := rfl

namespace Holds
variable {bytes : List UInt8}

theorem size_pos (h : Holds q bytes) : 0 < q.size.toNat := Nat.zero_lt_of_lt h.tail_lt

theorem head_lt (h : Holds q bytes) : q.head.toNat < q.size.toNat :=
  h.head ▸ Nat.mod_lt _ h.size_pos

/-- What is copied in where there is room comes last. -/
theorem copyIn (h : Holds q bytes) (src : Nat → UInt8) (n : Nat)
    (hroom : bytes.length + n ≤ q.size.toNat) :
    Holds (q.copyIn src n) (bytes ++ (List.range n).map src) := by
  have hlength : (bytes ++ (List.range n).map src).length = bytes.length + n := by simp
  constructor
  · rw [copyIn_eq]
    exact h.tail_lt
  · have hpos := (RingIndex.uint32 q.size).write_pos h.head_lt src q.buf n
    rw [hlength, copyIn_eq]
    refine hpos.trans ?_
    change (q.head.toNat + n) % _ = _
    rw [h.head, Nat.mod_add_mod, Nat.add_assoc]
  · rw [hlength, copyIn_eq]
    exact hroom
  · rw [hlength, copyIn_eq]
    exact (RingIndex.write_content h.head h.size_pos hroom).trans (by rw [h.content])

/-- The free space is what the bytes leave, also where the head has come round to the tail. -/
theorem getFreeSpace (h : Holds q bytes) (hcount : q.count = 0 ↔ bytes = []) :
    q.getFreeSpace.toNat = q.size.toNat - bytes.length := by
  have ht := h.tail_lt
  have hfits := h.fits
  have hhead : q.head.toNat = if q.tail.toNat + bytes.length < q.size.toNat
      then q.tail.toNat + bytes.length else q.tail.toNat + bytes.length - q.size.toNat := by
    rw [h.head]
    split_ifs with hlt
    · exact Nat.mod_eq_of_lt hlt
    · rw [Nat.mod_eq_sub_mod (by omega), Nat.mod_eq_of_lt (by omega)]
  rw [← List.length_eq_zero_iff] at hcount
  fun_cases Q.getFreeSpace q with
  | case1 heq hne =>
    have : bytes.length ≠ 0 := fun hzero => hne (hcount.mpr hzero)
    rw [← UInt32.toNat_inj] at heq
    rw [UInt32.toNat_zero]
    split_ifs at hhead <;> omega
  | case2 heq hne =>
    have : bytes.length = 0 := hcount.mp (not_not.mp hne)
    omega
  | case3 heq hgt =>
    have hgt' : q.tail.toNat < q.head.toNat := UInt32.lt_iff_toNat_lt.mp hgt
    have hsub : (q.size - q.head).toNat = q.size.toNat - q.head.toNat :=
      UInt32.toNat_sub_of_le _ _ (UInt32.le_iff_toNat_le.mpr h.head_lt.le)
    have hsize := q.size.toNat_lt
    rw [UInt32.toNat_add, hsub]
    split_ifs at hhead <;> omega
  | case4 heq hgt =>
    have hle : q.head.toNat ≤ q.tail.toNat := by
      rw [← UInt32.le_iff_toNat_le]
      exact UInt32.not_lt.mp hgt
    rw [UInt32.toNat_sub_of_le _ _ (UInt32.le_iff_toNat_le.mpr hle)]
    rw [← UInt32.toNat_inj] at heq
    split_ifs at hhead <;> omega

/-- Copying out hands over the oldest bytes and leaves the rest of the caller's buffer alone. -/
theorem copyOut_fst {d rest : List UInt8} (h : Holds q (d ++ rest)) (dst : Nat → UInt8) :
    (q.copyOut d.length dst q.tail).1 = blit dst 0 d := by
  obtain ⟨hd, -⟩ := ringContent_split rfl (List.length_append ▸ h.content)
  funext i
  rw [copyOut_eq, RingIndex.read_apply h.tail_lt]
  simp only [blit, Nat.zero_le, if_true, Nat.sub_zero, List.getD_eq_getElem?_getD]
  split_ifs with hi
  · conv_rhs => rw [← hd]
    simp [ringContent, hi]
    rfl
  · rw [List.getElem?_eq_none (by omega), Option.getD_none]

/-- Behind what has been copied out lies the rest. -/
theorem copyOut_snd {d rest : List UInt8} (h : Holds q (d ++ rest)) (dst : Nat → UInt8)
    (count : UInt32) :
    Holds { q with tail := (q.copyOut d.length dst q.tail).2, count } rest := by
  have htail : (q.copyOut d.length dst q.tail).2.toNat =
      (q.tail.toNat + d.length) % q.size.toNat :=
    (RingIndex.uint32 q.size).read_pos h.tail_lt _ _ _
  have hlength : (d ++ rest).length = d.length + rest.length := List.length_append
  obtain ⟨-, hrest⟩ := ringContent_split rfl (hlength ▸ h.content)
  constructor
  · exact htail ▸ Nat.mod_lt _ h.size_pos
  · rw [htail, Nat.mod_add_mod, Nat.add_assoc, ← hlength]
    exact h.head
  · exact (by omega : rest.length ≤ (d ++ rest).length).trans h.fits
  · rw [htail, ringContent_mod]
    exact hrest

end Holds

namespace Rep
variable {data : Nat → UInt8} {size : UInt32}

theorem count_eq_zero (h : Rep o q items) : q.count = 0 ↔ items = [] := by
  rw [← UInt32.toNat_inj, h.count]
  simp

theorem used_le (h : Rep o q items) : ByteFifo.used items ≤ q.size.toNat :=
  length_flatMap (o := o) items ▸ h.fits

theorem getFreeSpace (h : Rep o q items) :
    q.getFreeSpace.toNat = q.size.toNat - ByteFifo.used items := by
  rw [← length_flatMap (o := o)]
  apply h.toHolds.getFreeSpace
  rw [h.count_eq_zero]
  cases items <;> simp [itemBytes, ← List.length_eq_zero_iff, sizeofQItem]

theorem clear (h : Rep o q items) : Rep o q.clear.2 [] :=
  ⟨⟨h.size_pos, by simp [Q.clear], Nat.zero_le _, rfl⟩, rfl⟩

/-- With room for the header and the bytes, the item comes last. -/
theorem enqueue (h : Rep o q items) (hsize : size ≠ 0)
    (hroom : ByteFifo.used (items ++ [peek data 0 size.toNat]) ≤ q.size.toNat) :
    (q.enqueue o (some data) size).1 = .ok ∧
      Rep o (q.enqueue o (some data) size).2 (items ++ [peek data 0 size.toNat]) := by
  rw [ByteFifo.used_append, peek_length] at hroom
  have hfree : ¬q.getFreeSpace.toNat < size.toNat + sizeofQItem := by
    rw [h.getFreeSpace]
    omega
  have hheader : (List.range sizeofQItem).map (qItem o size) = o.bytes sizeofQItem size.toNat := by
    apply List.ext_getElem
    · simp
    · intro i hi hi'
      rw [List.getElem_map, List.getElem_range, qItem, List.getD_eq_getElem?_getD,
        List.getElem?_eq_getElem hi', Option.getD_some]
  have hdata : (List.range size.toNat).map data = peek data 0 size.toNat := by simp [peek]
  have hfirst := h.toHolds.copyIn (qItem o size) sizeofQItem (by
    rw [length_flatMap]
    omega)
  have hsizes : (q.copyIn (qItem o size) sizeofQItem).size = q.size := by rw [copyIn_eq]
  have hsecond := hfirst.copyIn data size.toNat (by
    rw [hsizes, List.length_append, length_flatMap, List.length_map, List.length_range]
    omega)
  rw [hheader, hdata, List.append_assoc] at hsecond
  simp only [Q.enqueue, if_neg hsize, if_neg hfree, true_and]
  refine ⟨?_, ?_⟩
  · rw [List.flatMap_append, List.flatMap_singleton, itemBytes, peek_length]
    exact ⟨hsecond.tail_lt, hsecond.head, hsecond.fits, hsecond.content⟩
  · have hcount :
        ((q.copyIn (qItem o size) sizeofQItem).copyIn data size.toNat).count = q.count := by
      simp only [copyIn_eq]
    have hlength := length_le_used items
    have hbound := q.size.toNat_lt
    simp only [sizeofQItem] at hlength hroom
    rw [hcount, UInt32.toNat_add, UInt32.toNat_one, h.count, List.length_append,
      List.length_singleton]
    exact Nat.mod_eq_of_lt (by omega)

theorem enqueue_full (h : Rep o q items) (hsize : size ≠ 0)
    (hroom : ¬ByteFifo.used (items ++ [peek data 0 size.toNat]) ≤ q.size.toNat) :
    q.enqueue o (some data) size = (.enomem, q) := by
  rw [ByteFifo.used_append, peek_length] at hroom
  have hused := h.used_le
  have hfree : q.getFreeSpace.toNat < size.toNat + sizeofQItem := by
    rw [h.getFreeSpace]
    omega
  simp [Q.enqueue, hsize, hfree]

variable {d : List UInt8} {rest : List (List UInt8)}

/-- The header of the oldest item is its length, and its bytes lie behind it. -/
theorem header (h : Rep o q (d :: rest)) (dst : Nat → UInt8) (count : UInt32) :
    o.nat (peek (q.copyOut sizeofQItem dst q.tail).1 0 sizeofQItem) = d.length ∧
      Holds { q with tail := (q.copyOut sizeofQItem dst q.tail).2, count }
        (d ++ rest.flatMap (itemBytes o)) := by
  have hholds : Holds q (o.bytes sizeofQItem d.length ++ (d ++ rest.flatMap (itemBytes o))) := by
    have := h.toHolds
    rwa [List.flatMap_cons, itemBytes, List.append_assoc] at this
  have hlength : sizeofQItem = (o.bytes sizeofQItem d.length).length := by simp
  have hfits := h.used_le
  have hsize := q.size.toNat_lt
  rw [ByteFifo.used_cons] at hfits
  constructor
  · have hfst := hholds.copyOut_fst dst
    rw [← hlength] at hfst
    have hpeek := peek_blit_self dst 0 (o.bytes sizeofQItem d.length)
    rw [← hlength] at hpeek
    rw [hfst, hpeek]
    exact o.nat_bytes (by simp only [sizeofQItem]; omega)
  · have hsnd := hholds.copyOut_snd dst count
    rwa [← hlength] at hsnd

/-- A buffer that is large enough gets the bytes of the oldest item. -/
theorem dequeue (h : Rep o q (d :: rest)) (data : Nat → UInt8) (hsize : size ≠ 0)
    (hd : d.length ≤ size.toNat) :
    (q.dequeue o (some data) size).1 = .ok ∧
      (q.dequeue o (some data) size).2.1 = some (blit data 0 d) ∧
      Rep o (q.dequeue o (some data) size).2.2 rest := by
  have hcount : q.count ≠ 0 := by simp [h.count_eq_zero]
  obtain ⟨hheader, hholds⟩ := h.header (fun _ => 0) (q.count - 1)
  have hfst := hholds.copyOut_fst data
  have hsnd := hholds.copyOut_snd data (q.count - 1)
  simp only [Q.dequeue, if_neg hsize, if_neg hcount, hheader, gt_iff_lt,
    if_neg (Nat.not_lt.mpr hd), true_and]
  refine ⟨congrArg some hfst, hsnd, ?_⟩
  have hle : (1 : UInt32) ≤ q.count := by
    rw [UInt32.le_iff_toNat_le, h.count]
    simp
  rw [UInt32.toNat_sub_of_le _ _ hle, h.count]
  rfl

theorem dequeue_short (h : Rep o q (d :: rest)) (hsize : size ≠ 0) (hd : ¬d.length ≤ size.toNat) :
    q.dequeue o (some data) size = (.enomem, some data, q) := by
  have hcount : q.count ≠ 0 := by simp [h.count_eq_zero]
  obtain ⟨hheader, -⟩ := h.header (fun _ => 0) q.count
  simp [Q.dequeue, hsize, hcount, hheader, Nat.lt_of_not_le hd]

theorem dequeue_empty (h : Rep o q []) (hsize : size ≠ 0) :
    q.dequeue o (some data) size = (.enodata, some data, q) := by
  simp [Q.dequeue, hsize, h.count_eq_zero]

end Rep

/-- No call resizes the queue. -/
theorem step_size (call : Call) : (q.step o call).2.size = q.size := by
  cases call with
  | enqueue data size =>
    simp only [step, enqueue]
    split
    · rfl
    · split_ifs
      · rfl
      · rfl
      · simp only [copyIn_eq]
  | dequeue data size =>
    change (q.dequeue o data size).2.2.size = q.size
    fun_cases dequeue q o data size <;> rfl
  | clear => rfl

/-- Every call does what the specification says. -/
theorem Rep.step (h : Rep o q items) (call : Call) :
    (q.step o call).1 = (ByteFifo.step q.size items call).1 ∧
      Rep o (q.step o call).2 (ByteFifo.step q.size items call).2 := by
  cases call with
  | clear => exact ⟨rfl, h.clear⟩
  | enqueue data n =>
    cases data with
    | none => exact ⟨rfl, h⟩
    | some data =>
      by_cases hn : n = 0
      · simpa [Q.step, Q.enqueue, ByteFifo.step, hn] using h
      · by_cases hroom : ByteFifo.used (items ++ [peek data 0 n.toNat]) ≤ q.size.toNat
        · obtain ⟨herr, hrep⟩ := h.enqueue hn hroom
          simpa only [Q.step, ByteFifo.step, if_neg hn, if_pos hroom, herr, true_and] using hrep
        · simpa only [Q.step, ByteFifo.step, if_neg hn, if_neg hroom, h.enqueue_full hn hroom,
            true_and] using h
  | dequeue data n =>
    cases data with
    | none => exact ⟨rfl, h⟩
    | some data =>
      by_cases hn : n = 0
      · simpa [Q.step, Q.dequeue, ByteFifo.step, hn] using h
      · cases items with
        | nil => simpa only [Q.step, ByteFifo.step, if_neg hn, h.dequeue_empty hn, true_and] using h
        | cons d rest =>
          by_cases hd : d.length ≤ n.toNat
          · obtain ⟨herr, hdata, hrep⟩ := h.dequeue data hn hd
            simpa only [Q.step, ByteFifo.step, if_neg hn, if_pos hd, herr, hdata, true_and]
              using hrep
          · simpa only [Q.step, ByteFifo.step, if_neg hn, if_neg hd, h.dequeue_short hn hd,
              true_and] using h

/-- A queue as `q_create` or `q_create_static` returns it. -/
def Created (size : UInt32) (q : Q) : Prop :=
  (∃ queue buf, create size queue buf = some q) ∨ ∃ buf, createStatic buf size = (.ok, some q)

theorem Created.rep {size : UInt32} (h : Created size q) : Rep o q [] ∧ q.size = size := by
  have hnew : size ≠ 0 ∧ ∃ buf, q = ⟨size, 0, 0, 0, buf⟩ := by
    rcases h with ⟨queue, buf, h⟩ | ⟨buf, h⟩
    · unfold create at h
      split at h <;> grind
    · unfold createStatic at h
      split at h <;> grind
  obtain ⟨hsize, buf, rfl⟩ := hnew
  have hpos : 0 < size.toNat := by
    rw [Nat.pos_iff_ne_zero, ← UInt32.toNat_zero, Ne, UInt32.toNat_inj]
    exact hsize
  exact ⟨⟨⟨hpos, by simp, Nat.zero_le _, rfl⟩, rfl⟩, rfl⟩

end Q

open Q in
/-- **The queue is a bounded list of byte strings.** It answers every run of calls as the list does,
its indices stay in the buffer, its free space is what the items leave, and a call that returns an
error leaves the items as they are. -/
theorem q_bounded_fifo (o : ByteOrder) {size : UInt32} {q : Q} (hq : Created size q)
    (calls : List Call) :
    let run := answers (Q.step o) q calls
    let spec := answers (ByteFifo.step size) [] calls
    run.1 = spec.1 ∧ run.2.head < size ∧ run.2.tail < size ∧
      run.2.getFreeSpace.toNat + ByteFifo.used spec.2 = size.toNat ∧
      (∀ data n, n ≠ 0 → ((run.2.enqueue o (some data) n).1 = .ok ↔
        ByteFifo.used (spec.2 ++ [peek data 0 n.toNat]) ≤ size.toNat)) ∧
      ∀ call, (run.2.step o call).1.1 ≠ .ok → Rep o (run.2.step o call).2 spec.2 := by
  intro run spec
  obtain ⟨hrep, hsize⟩ := hq.rep (o := o)
  have hkept : ∀ (q : Q) (items : List (List UInt8)) (call : Call),
      (Rep o q items ∧ q.size = size) → (q.step o call).1 = (ByteFifo.step size items call).1 ∧
        Rep o (q.step o call).2 (ByteFifo.step size items call).2 ∧
        (q.step o call).2.size = size := by
    rintro q items call ⟨h, rfl⟩
    exact ⟨(h.step call).1, (h.step call).2, step_size call⟩
  obtain ⟨hanswers, hend⟩ := answers_refine hkept calls ⟨hrep, hsize⟩
  obtain ⟨hrun, hsize⟩ : Rep o run.2 spec.2 ∧ run.2.size = size := hend
  refine ⟨hanswers, ?_, ?_, ?_, ?_, ?_⟩
  · exact UInt32.lt_iff_toNat_lt.mpr (hsize ▸ hrun.head_lt)
  · exact UInt32.lt_iff_toNat_lt.mpr (hsize ▸ hrun.tail_lt)
  · have hused := hrun.used_le
    rw [hrun.getFreeSpace, ← hsize]
    omega
  · intro data n hn
    rw [← hsize]
    constructor
    · intro hok
      by_contra hroom
      rw [hrun.enqueue_full hn hroom] at hok
      simp at hok
    · intro hroom
      exact (hrun.enqueue hn hroom).1
  · intro call herr
    obtain ⟨hanswer, hnext, -⟩ := hkept _ _ call ⟨hrun, hsize⟩
    rw [hanswer] at herr
    rwa [ByteFifo.step_of_err herr] at hnext

/-- Two items in a ring of sixteen bytes, the second one longer than the room they leave. -/
theorem q_bounded_fifo_sixteen :
    let q : Q := ⟨16, 0, 0, 0, fun _ => 0⟩
    let data : Nat → UInt8 := fun i => .ofNat i
    let calls : List Q.Call :=
      [.enqueue data 5, .enqueue data 4, .dequeue data 8, .enqueue data 12, .dequeue data 3]
    Q.Created 16 q ∧
      (answers (Q.step .little) q calls).1 = (answers (ByteFifo.step 16) [] calls).1 := by
  intro q data calls
  have hq : Q.Created 16 q := .inr ⟨some fun _ => 0, by simp [Q.createStatic, q]⟩
  exact ⟨hq, (q_bounded_fifo .little hq calls).1⟩

end BmCore
