import BmCore.Common.Util
import BmCore.Library.Bytes
import BmCore.Library.Ring
import BmCore.Library.Runs

/-!
# Event queue

The queues of `common/bm_posix.c`: `capacity` items of one size in a ring. Items are appended at the
tail, or put in front of the head, which then moves back, and they are taken from the head. A call
holds the lock of the queue from its last look at `count` on, so it is a step of its own; what it
does while it has to wait depends on its timeout only.
-/
namespace BmCore
open Library

/-- `PosixQueue`, with the bytes behind `storage` -/
structure PosixQueue where
  storage : Nat → UInt8
  itemSize : UInt32
  capacity : UInt32
  count : UInt32
  /-- dequeue index -/
  head : UInt32
  /-- enqueue index -/
  tail : UInt32

/-- What a call returns and what is behind the caller's pointer then, if it returns. -/
abbrev QueueAnswer := Option (BmErr × Option (Nat → UInt8))

/-- The loops that wait: the error code they return with, if they do. `expired` says that
`pthread_cond_timedwait` has timed out. -/
def waitOutcome (err : BmErr) (timeoutMs : UInt32) (expired : Bool) : Option BmErr :=
  if timeoutMs = 0 then some err
  else if timeoutMs = 0xFFFFFFFF then none
  else if expired then some .etimedout
  else none

namespace PosixQueue
variable (q : PosixQueue)

/-- `bm_queue_create`, with the outcomes of its two allocations. -/
def create (queueLength itemSize : UInt32) (queue storage : Bool) : Option PosixQueue :=
  if queue ∧ storage then some ⟨fun _ => 0, itemSize, queueLength, 0, 0, 0⟩ else none

/-- `bm_queue_receive` -/
def receive (item : Option (Nat → UInt8)) (timeoutMs : UInt32) (expired : Bool) :
    QueueAnswer × PosixQueue :=
  match item with
  | none => (some (.einval, none), q)
  | some item =>
    if q.count = 0 then ((waitOutcome .etimedout timeoutMs expired).map (·, some item), q)
    else (some (.ok, blit item 0 (peek q.storage (q.head * q.itemSize).toNat q.itemSize.toNat)),
      { q with head := (q.head + 1) % q.capacity, count := q.count - 1 })

/-- `bm_queue_send` -/
def send (item : Option (Nat → UInt8)) (timeoutMs : UInt32) (expired : Bool) :
    QueueAnswer × PosixQueue :=
  match item with
  | none => (some (.einval, none), q)
  | some item =>
    if q.count = q.capacity then ((waitOutcome .enomem timeoutMs expired).map (·, some item), q)
    else (some (.ok, item), { q with
      storage := blit q.storage (q.tail * q.itemSize).toNat (peek item 0 q.itemSize.toNat)
      tail := (q.tail + 1) % q.capacity
      count := q.count + 1 })

/-- `bm_queue_send_to_front_from_isr` -/
def sendToFrontFromIsr (item : Option (Nat → UInt8)) : QueueAnswer × PosixQueue :=
  match item with
  | none => (some (.einval, none), q)
  | some item =>
    if q.count = q.capacity then (some (.enomem, item), q)
    else
      let head := if q.head = 0 then q.capacity - 1 else q.head - 1
      (some (.ok, item), { q with
        head
        storage := blit q.storage (head * q.itemSize).toNat (peek item 0 q.itemSize.toNat)
        count := q.count + 1 })

/-- A call, with what is behind the caller's pointer. -/
inductive Call where
  | receive (item : Option (Nat → UInt8)) (timeoutMs : UInt32) (expired : Bool)
  | send (item : Option (Nat → UInt8)) (timeoutMs : UInt32) (expired : Bool)
  | sendToFront (item : Option (Nat → UInt8))

def step (q : PosixQueue) : Call → QueueAnswer × PosixQueue
  | .receive item timeoutMs expired => q.receive item timeoutMs expired
  | .send item timeoutMs expired => q.send item timeoutMs expired
  | .sendToFront item => q.sendToFrontFromIsr item

/-- The item of a slot. -/
def slot (i : Nat) : List UInt8 := peek q.storage (i * q.itemSize.toNat) q.itemSize.toNat

/-- The items in the queue, from the head on. -/
def items : List (List UInt8) :=
  ringContent q.capacity.toNat q.slot q.head.toNat q.count.toNat

end PosixQueue

/-- A list of up to `capacity` items of `itemSize` bytes. -/
def BoundedDeque.step (capacity itemSize : Nat) (items : List (List UInt8)) :
    PosixQueue.Call → QueueAnswer × List (List UInt8)
  | .receive none _ _ | .send none _ _ | .sendToFront none => (some (.einval, none), items)
  | .receive (some item) timeoutMs expired =>
    match items with
    | [] => ((waitOutcome .etimedout timeoutMs expired).map (·, some item), [])
    | d :: rest => (some (.ok, blit item 0 d), rest)
  | .send (some item) timeoutMs expired =>
    if items.length < capacity then (some (.ok, item), items ++ [peek item 0 itemSize])
    else ((waitOutcome .enomem timeoutMs expired).map (·, some item), items)
  | .sendToFront (some item) =>
    if items.length < capacity then (some (.ok, item), peek item 0 itemSize :: items)
    else (some (.enomem, item), items)

namespace PosixQueue
variable {q : PosixQueue} {item : Nat → UInt8} {i : UInt32} {bs : List UInt8}

/-- The relation between the indices that every call keeps. -/
structure Inv (q : PosixQueue) : Prop where
  bytes : q.capacity.toNat * q.itemSize.toNat < 2 ^ 32
  head_lt : q.head.toNat < q.capacity.toNat
  tail : q.tail.toNat = (q.head.toNat + q.count.toNat) % q.capacity.toNat
  count_le : q.count.toNat ≤ q.capacity.toNat

/-- A slot starts where the product that the code computes says. -/
theorem toNat_mul_itemSize (h : Inv q) (hi : i.toNat < q.capacity.toNat) :
    (i * q.itemSize).toNat = i.toNat * q.itemSize.toNat := by
  have hle : i.toNat * q.itemSize.toNat ≤ q.capacity.toNat * q.itemSize.toNat :=
    Nat.mul_le_mul_right _ hi.le
  have hbytes := h.bytes
  rw [UInt32.toNat_mul]
  exact Nat.mod_eq_of_lt (by omega)

/-- Writing one slot leaves the others alone. -/
theorem slot_write (k : Nat) (hbs : bs.length = q.itemSize.toNat) :
    slot { q with storage := blit q.storage (k * q.itemSize.toNat) bs } =
      Function.update q.slot k bs := by
  funext j
  rcases Nat.lt_trichotomy j k with hlt | rfl | hgt
  · rw [Function.update_of_ne hlt.ne]
    have hle : j * q.itemSize.toNat + q.itemSize.toNat ≤ k * q.itemSize.toNat := by
      rw [← Nat.succ_mul]
      exact Nat.mul_le_mul_right _ hlt
    exact peek_blit_before _ _ hle
  · rw [Function.update_self]
    simp only [slot, ← hbs]
    exact peek_blit_self _ _ _
  · rw [Function.update_of_ne hgt.ne']
    have hle : k * q.itemSize.toNat + bs.length ≤ j * q.itemSize.toNat := by
      rw [hbs, ← Nat.succ_mul]
      exact Nat.mul_le_mul_right _ hgt
    exact peek_blit_after _ _ hle

@[simp] theorem items_length : q.items.length = q.count.toNat := by simp [items]

namespace Inv

theorem tail_lt (h : Inv q) : q.tail.toNat < q.capacity.toNat :=
  h.tail ▸ Nat.mod_lt _ (Nat.zero_lt_of_lt h.head_lt)

theorem items_length_le (h : Inv q) : q.items.length ≤ q.capacity.toNat := by
  rw [items_length]
  exact h.count_le

theorem length_lt (h : Inv q) (hroom : q.count ≠ q.capacity) :
    q.count.toNat < q.capacity.toNat := by
  have hle := h.count_le
  rw [Ne, ← UInt32.toNat_inj] at hroom
  omega

theorem toNat_count_add_one (h : Inv q) (hroom : q.count ≠ q.capacity) :
    (q.count + 1).toNat = q.count.toNat + 1 := by
  have hlt := h.length_lt hroom
  have hcapacity := q.capacity.toNat_lt
  rw [UInt32.toNat_add, UInt32.toNat_one]
  omega

theorem toNat_next (hi : i.toNat < q.capacity.toNat) :
    ((i + 1) % q.capacity).toNat = (i.toNat + 1) % q.capacity.toNat :=
  (RingIndex.uint32 q.capacity).pos_next i hi

/-- A slot is written where the product that the code computes says. -/
theorem slot_write_toNat (h : Inv q) (hi : i.toNat < q.capacity.toNat)
    (hbs : bs.length = q.itemSize.toNat) :
    slot { q with storage := blit q.storage (i * q.itemSize).toNat bs } =
      Function.update q.slot i.toNat bs := by
  rw [toNat_mul_itemSize h hi]
  exact slot_write i.toNat hbs

/-- What is appended comes last, and the tail moves on. -/
theorem send (h : Inv q) (hroom : q.count ≠ q.capacity) (timeoutMs : UInt32) (expired : Bool) :
    (q.send (some item) timeoutMs expired).1 = some (.ok, some item) ∧
      Inv (q.send (some item) timeoutMs expired).2 ∧
      (q.send (some item) timeoutMs expired).2.items =
        q.items ++ [peek item 0 q.itemSize.toNat] := by
  have hcount := h.toNat_count_add_one hroom
  have hlt := h.length_lt hroom
  simp only [PosixQueue.send, if_neg hroom, true_and]
  refine ⟨⟨h.bytes, h.head_lt, ?_, ?_⟩, ?_⟩
  · rw [toNat_next h.tail_lt, h.tail, Nat.mod_add_mod, hcount, Nat.add_assoc]
  · rw [hcount]
    exact hlt
  · simp only [items, hcount]
    have hslot := h.slot_write_toNat h.tail_lt (peek_length item 0 q.itemSize.toNat)
    rw [h.tail] at hslot
    exact (congrArg (ringContent _ · _ _) hslot).trans (ringContent_push _ _ hlt)

/-- What goes to the front is the next to be taken: the head moves back, the tail stays. -/
theorem sendToFrontFromIsr (h : Inv q) (hroom : q.count ≠ q.capacity) :
    (q.sendToFrontFromIsr (some item)).1 = some (.ok, some item) ∧
      Inv (q.sendToFrontFromIsr (some item)).2 ∧
      (q.sendToFrontFromIsr (some item)).2.items =
        peek item 0 q.itemSize.toNat :: q.items := by
  have hcount := h.toNat_count_add_one hroom
  have hlt := h.length_lt hroom
  have hhead := h.head_lt
  simp only [PosixQueue.sendToFrontFromIsr, if_neg hroom, true_and]
  set head := if q.head = 0 then q.capacity - 1 else q.head - 1 with hdef
  -- going back wraps at the first slot where going on wraps at the last one
  have hback : head.toNat =
      if q.head.toNat = 0 then q.capacity.toNat - 1 else q.head.toNat - 1 := by
    rw [hdef, apply_ite UInt32.toNat]
    have hzero : q.head = 0 ↔ q.head.toNat = 0 := by rw [← UInt32.toNat_inj, UInt32.toNat_zero]
    simp only [hzero]
    split_ifs with hz
    · exact UInt32.toNat_sub_of_le _ _ (UInt32.le_iff_toNat_le.mpr (by simp; omega))
    · exact UInt32.toNat_sub_of_le _ _ (UInt32.le_iff_toNat_le.mpr (by simp; omega))
  have hback_lt : head.toNat < q.capacity.toNat := by
    rw [hback]
    split_ifs <;> omega
  have hnext : (head.toNat + 1) % q.capacity.toNat = q.head.toNat := by
    rw [hback]
    split_ifs with hz
    · rw [Nat.sub_add_cancel (by omega), Nat.mod_self, hz]
    · rw [Nat.sub_add_cancel (by omega), Nat.mod_eq_of_lt hhead]
  refine ⟨⟨h.bytes, hback_lt, ?_, ?_⟩, ?_⟩
  · rw [h.tail, hcount, Nat.add_comm _ 1, ← Nat.add_assoc, ← hnext, Nat.mod_add_mod]
  · rw [hcount]
    exact hlt
  · simp only [items, hcount]
    have hslot := h.slot_write_toNat hback_lt (peek_length item 0 q.itemSize.toNat)
    have hpush := ringContent_push_front q.slot (peek item 0 q.itemSize.toNat) hlt
      (hnext.trans (Nat.mod_eq_of_lt hhead).symm)
    rw [Nat.mod_eq_of_lt hback_lt] at hpush
    exact (congrArg (ringContent _ · _ _) hslot).trans hpush

/-- The item at the head is taken. -/
theorem receive (h : Inv q) (hcount : q.count ≠ 0) (item : Nat → UInt8) (timeoutMs : UInt32)
    (expired : Bool) :
    ∃ d rest, q.items = d :: rest ∧
      (q.receive (some item) timeoutMs expired).1 = some (.ok, some (blit item 0 d)) ∧
      Inv (q.receive (some item) timeoutMs expired).2 ∧
      (q.receive (some item) timeoutMs expired).2.items = rest := by
  have hle : (1 : UInt32) ≤ q.count := by
    rw [Ne, ← UInt32.toNat_inj, UInt32.toNat_zero] at hcount
    rw [UInt32.le_iff_toNat_le, UInt32.toNat_one]
    omega
  have hpred : (q.count - 1).toNat = q.count.toNat - 1 := UInt32.toNat_sub_of_le _ _ hle
  have hpos : q.count.toNat = (q.count - 1).toNat + 1 := by
    rw [UInt32.le_iff_toNat_le, UInt32.toNat_one] at hle
    omega
  have hcons : q.items = peek q.storage (q.head * q.itemSize).toNat q.itemSize.toNat ::
      ringContent q.capacity.toNat q.slot (q.head.toNat + 1) (q.count - 1).toNat := by
    rw [items, hpos, ringContent_succ, Nat.mod_eq_of_lt h.head_lt, slot,
      toNat_mul_itemSize h h.head_lt]
  refine ⟨_, _, hcons, ?_⟩
  simp only [PosixQueue.receive, if_neg hcount, true_and]
  refine ⟨⟨h.bytes, ?_, ?_, ?_⟩, ?_⟩
  · rw [toNat_next h.head_lt]
    exact Nat.mod_lt _ (Nat.zero_lt_of_lt h.head_lt)
  · rw [toNat_next h.head_lt, Nat.mod_add_mod, h.tail, hpos, Nat.add_right_comm, Nat.add_assoc]
  · have hle := h.count_le
    dsimp only
    omega
  · simp only [items, toNat_next h.head_lt, ringContent_mod]
    rfl

theorem items_eq_nil (h : q.count = 0) : q.items = [] := by simp [items, h]

/-- Every call does what the list does. -/
theorem step (h : Inv q) (call : Call) :
    let spec := BoundedDeque.step q.capacity.toNat q.itemSize.toNat q.items call
    (q.step call).1 = spec.1 ∧ Inv (q.step call).2 ∧ (q.step call).2.items = spec.2 := by
  cases call with
  | receive item timeoutMs expired =>
    cases item with
    | none => exact ⟨rfl, h, rfl⟩
    | some item =>
      by_cases hcount : q.count = 0
      · have hnil := items_eq_nil hcount
        simp only [PosixQueue.step, PosixQueue.receive, if_pos hcount, BoundedDeque.step, hnil,
          true_and]
        exact ⟨h, trivial⟩
      · obtain ⟨d, rest, hitems, hreceive⟩ := h.receive hcount item timeoutMs expired
        simpa only [PosixQueue.step, BoundedDeque.step, hitems] using hreceive
  | send item timeoutMs expired =>
    cases item with
    | none => exact ⟨rfl, h, rfl⟩
    | some item =>
      by_cases hfull : q.count = q.capacity
      · have hnot : ¬q.count.toNat < q.capacity.toNat := by simp [hfull]
        simp only [PosixQueue.step, PosixQueue.send, if_pos hfull, BoundedDeque.step, items_length,
          if_neg hnot, true_and]
        exact ⟨h, trivial⟩
      · simpa only [PosixQueue.step, BoundedDeque.step, items_length, if_pos (h.length_lt hfull)]
          using h.send hfull timeoutMs expired
  | sendToFront item =>
    cases item with
    | none => exact ⟨rfl, h, rfl⟩
    | some item =>
      by_cases hfull : q.count = q.capacity
      · have hnot : ¬q.count.toNat < q.capacity.toNat := by simp [hfull]
        simp only [PosixQueue.step, PosixQueue.sendToFrontFromIsr, if_pos hfull, BoundedDeque.step,
          items_length, if_neg hnot, true_and]
        exact ⟨h, trivial⟩
      · simpa only [PosixQueue.step, BoundedDeque.step, items_length, if_pos (h.length_lt hfull)]
          using h.sendToFrontFromIsr hfull

end Inv

/-- No call changes what the queue was created with. -/
theorem step_shape (call : Call) :
    (q.step call).2.capacity = q.capacity ∧ (q.step call).2.itemSize = q.itemSize := by
  cases call with
  | receive item timeoutMs expired =>
    simp only [step, receive]
    split
    · exact ⟨rfl, rfl⟩
    · split_ifs <;> exact ⟨rfl, rfl⟩
  | send item timeoutMs expired =>
    simp only [step, send]
    split
    · exact ⟨rfl, rfl⟩
    · split_ifs <;> exact ⟨rfl, rfl⟩
  | sendToFront item =>
    simp only [step, sendToFrontFromIsr]
    split
    · exact ⟨rfl, rfl⟩
    · split_ifs <;> exact ⟨rfl, rfl⟩

/-- What `create` returns is empty. -/
theorem create_spec {capacity itemSize : UInt32} {queue storage : Bool} (hcap : 1 ≤ capacity)
    (hbytes : capacity.toNat * itemSize.toNat < 2 ^ 32)
    (hq : create capacity itemSize queue storage = some q) :
    Inv q ∧ q.items = [] ∧ q.capacity = capacity ∧ q.itemSize = itemSize := by
  unfold create at hq
  split_ifs at hq
  cases hq
  have hpos : 0 < capacity.toNat := UInt32.le_iff_toNat_le.mp hcap
  exact ⟨⟨hbytes, hpos, by simp, Nat.zero_le _⟩, rfl, rfl, rfl⟩

/-- A call without a timeout that finds the queue full returns an error and changes nothing. -/
theorem send_full (hfull : q.count = q.capacity) (expired : Bool) :
    q.send (some item) 0 expired = (some (.enomem, some item), q) := by
  simp [send, hfull, waitOutcome]

theorem receive_empty (hempty : q.count = 0) (expired : Bool) :
    q.receive (some item) 0 expired = (some (.etimedout, some item), q) := by
  simp [receive, hempty, waitOutcome]

end PosixQueue

open PosixQueue in
/-- **The event queue is a bounded deque.** It answers every run of calls as a list under push-back,
push-front and pop-front does, never holds more than `capacity` items, and a call without a timeout
that finds no room, or no item, returns an error and changes nothing. -/
theorem event_queue_bounded_deque {capacity itemSize : UInt32} {queue storage : Bool}
    {q : PosixQueue} (hcap : 1 ≤ capacity) (hbytes : capacity.toNat * itemSize.toNat < 2 ^ 32)
    (hq : create capacity itemSize queue storage = some q) (calls : List Call) :
    let run := answers PosixQueue.step q calls
    let spec := answers (BoundedDeque.step capacity.toNat itemSize.toNat) [] calls
    run.1 = spec.1 ∧ run.2.items = spec.2 ∧ spec.2.length ≤ capacity.toNat ∧
      (∀ item expired, spec.2.length = capacity.toNat →
        run.2.send (some item) 0 expired = (some (.enomem, some item), run.2)) ∧
      (∀ item, spec.2.length = capacity.toNat →
        run.2.sendToFrontFromIsr (some item) = (some (.enomem, some item), run.2)) ∧
      ∀ item expired, spec.2 = [] →
        run.2.receive (some item) 0 expired = (some (.etimedout, some item), run.2) := by
  intro run spec
  have hkept : ∀ (q : PosixQueue) (items : List (List UInt8)) (call : Call),
      (Inv q ∧ q.items = items ∧ q.capacity = capacity ∧ q.itemSize = itemSize) →
      (q.step call).1 = (BoundedDeque.step capacity.toNat itemSize.toNat items call).1 ∧
        Inv (q.step call).2 ∧
        (q.step call).2.items =
          (BoundedDeque.step capacity.toNat itemSize.toNat items call).2 ∧
        (q.step call).2.capacity = capacity ∧ (q.step call).2.itemSize = itemSize := by
    rintro q items call ⟨h, rfl, rfl, rfl⟩
    obtain ⟨hanswer, hinv, hitems⟩ := h.step call
    exact ⟨hanswer, hinv, hitems, step_shape call⟩
  obtain ⟨hanswers, hend⟩ := answers_refine hkept calls (create_spec hcap hbytes hq)
  obtain ⟨hinv, hitems, hcapacity, -⟩ :
    Inv run.2 ∧ run.2.items = spec.2 ∧ run.2.capacity = capacity ∧ run.2.itemSize = itemSize := hend
  have hlength : spec.2.length = run.2.count.toNat := by rw [← hitems, items_length]
  have hfull : spec.2.length = capacity.toNat → run.2.count = run.2.capacity := by
    rw [hlength, hcapacity]
    exact UInt32.toNat_inj.mp
  refine ⟨hanswers, hitems, ?_, ?_, ?_, ?_⟩
  · rw [← hitems, ← hcapacity]
    exact hinv.items_length_le
  · intro item expired hspec
    exact send_full (hfull hspec) expired
  · intro item hspec
    simp [sendToFrontFromIsr, hfull hspec]
  · intro item expired hspec
    refine receive_empty ?_ expired
    rw [← UInt32.toNat_inj, ← hlength, hspec]
    rfl

/-- Three slots of two bytes that wrap at both ends. -/
theorem event_queue_bounded_deque_three :
    let q : PosixQueue := ⟨fun _ => 0, 2, 3, 0, 0, 0⟩
    let item : Nat → UInt8 := fun i => .ofNat i
    let calls : List PosixQueue.Call := [.sendToFront item, .send item 0 false,
      .sendToFront item, .send item 0 false, .receive item 10 true, .send item 0 false]
    PosixQueue.create 3 2 true true = some q ∧
      (answers PosixQueue.step q calls).1 = (answers (BoundedDeque.step 3 2) [] calls).1 := by
  intro q item calls
  have hq : PosixQueue.create 3 2 true true = some q := rfl
  exact ⟨hq, (event_queue_bounded_deque (by decide) (by decide) hq calls).1⟩

end BmCore
