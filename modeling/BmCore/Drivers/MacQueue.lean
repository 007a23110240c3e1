import BmCore.Common.Util
import BmCore.Library.Ring

/-!
# Queues of the MAC driver

The queues of buffer descriptors in `drivers/adin2111/adi_mac.c`: a ring whose head is the entry
that is filled next and whose tail is the oldest one. One entry stays free, so that a full queue is
told from an empty one.
-/
namespace BmCore.Drivers
open Library

/-- `adi_mac_FrameStruct_t`, with the address of its descriptor -/
structure FrameStruct where
  header : UInt16
  pBufDesc : Nat
  deriving DecidableEq, Repr

/-- `adi_mac_Queue_t` -/
structure MacQueue where
  pEntries : Nat → FrameStruct
  numEntries : Nat
  head : Nat
  tail : Nat

/-- `PSEUDO_MODULO` -/
def pseudoModulo (n d : Nat) : Nat := if n < d then n else n - d

theorem pseudoModulo_eq {n d : Nat} (h : n < 2 * d) : pseudoModulo n d = n % d := by
  unfold pseudoModulo
  split_ifs with hn
  · exact (Nat.mod_eq_of_lt hn).symm
  · rw [Nat.mod_eq_sub_mod (by omega), Nat.mod_eq_of_lt (by omega)]

/-- An index that starts again behind the last entry of the ring. -/
theorem wrapped_eq {i n : Nat} (h : i < n) : (if i + 1 = n then 0 else i + 1) = (i + 1) % n := by
  split_ifs with heq
  · rw [heq, Nat.mod_self]
  · rw [Nat.mod_eq_of_lt (by omega)]

namespace MacQueue

/-- `queueInit` -/
def init (numEntries : Nat) : MacQueue := ⟨fun _ => ⟨0, 0⟩, numEntries, 0, 0⟩

variable (q : MacQueue)

/-- `queueCount` -/
def queueCount : Nat := pseudoModulo (q.head + q.numEntries - q.tail) q.numEntries

/-- `queueAvailable` -/
def queueAvailable : Nat := (q.numEntries - 1) - q.queueCount

/-- `queueIsFull` -/
def queueIsFull : Bool := q.numEntries - 1 = q.queueCount

/-- `queueIsEmpty` -/
def queueIsEmpty : Bool := q.head = q.tail

/-- `queueAdd` -/
def queueAdd : MacQueue := { q with head := pseudoModulo (q.head + 1) q.numEntries }

/-- `queueRemove` -/
def queueRemove : MacQueue := { q with tail := pseudoModulo (q.tail + 1) q.numEntries }

/-- The entry at the head is filled in and added. -/
def put (e : FrameStruct) : MacQueue :=
  { q with pEntries := Function.update q.pEntries q.head e }.queueAdd

/-- Head and tail lie in the ring, which has room for an entry. -/
structure Inv (q : MacQueue) : Prop where
  size : 2 ≤ q.numEntries
  head : q.head < q.numEntries
  tail : q.tail < q.numEntries

/-- The entries in the queue, the oldest one first. -/
def entries : List FrameStruct := ringContent q.numEntries q.pEntries q.tail q.queueCount

variable {q}

theorem init_inv {n : Nat} (h : 2 ≤ n) : (init n).Inv := ⟨h, by simp [init]; omega, by
  simp [init]; omega⟩

@[simp] theorem init_entries (n : Nat) : (init n).entries = [] := by
  simp [entries, init, queueCount, pseudoModulo]

@[simp] theorem entries_length : q.entries.length = q.queueCount := by simp [entries]

theorem queueCount_eq (h : q.Inv) :
    q.queueCount = if q.tail ≤ q.head then q.head - q.tail
      else q.head + q.numEntries - q.tail := by
  obtain ⟨_, _, _⟩ := h
  unfold queueCount pseudoModulo
  split_ifs <;> omega

theorem queueCount_lt (h : q.Inv) : q.queueCount < q.numEntries := by
  rw [queueCount_eq h]
  obtain ⟨_, _, _⟩ := h
  split_ifs <;> omega

/-- The head is as far behind the tail as there are entries. -/
theorem head_eq (h : q.Inv) : q.head = (q.tail + q.queueCount) % q.numEntries := by
  rw [queueCount_eq h]
  obtain ⟨_, _, _⟩ := h
  split_ifs
  · rw [Nat.mod_eq_of_lt (by omega)]
    omega
  · rw [Nat.mod_eq_sub_mod (by omega), Nat.mod_eq_of_lt (by omega)]
    omega

theorem queueIsEmpty_iff (h : q.Inv) : q.queueIsEmpty = true ↔ q.entries = [] := by
  rw [← List.length_eq_zero_iff, entries_length, queueCount_eq h]
  obtain ⟨_, _, _⟩ := h
  unfold queueIsEmpty
  split_ifs <;> simp <;> omega

/-- An index past the tail is the head's just behind the last entry. -/
theorem eq_head_iff (h : q.Inv) {k : Nat} (hk : k ≤ q.queueCount) :
    (q.tail + k) % q.numEntries = q.head ↔ k = q.queueCount := by
  rw [head_eq h]
  refine ⟨fun heq => ?_, fun heq => by rw [heq]⟩
  by_contra hne
  exact ring_ne (by omega : k < q.queueCount) (by have := queueCount_lt h; omega) heq

/-- The entry at an index past the tail. -/
theorem getElem?_entries {k : Nat} (hk : k < q.queueCount) :
    q.entries[k]? = some (q.pEntries ((q.tail + k) % q.numEntries)) := by
  simp [entries, ringContent, hk]

theorem inv_queueAdd (h : q.Inv) : q.queueAdd.Inv := by
  refine ⟨h.size, ?_, h.tail⟩
  obtain ⟨_, _, _⟩ := h
  change pseudoModulo (q.head + 1) q.numEntries < q.numEntries
  unfold pseudoModulo
  split_ifs <;> omega

theorem inv_put (h : q.Inv) (e : FrameStruct) : (q.put e).Inv :=
  inv_queueAdd ⟨h.size, h.head, h.tail⟩

theorem inv_queueRemove (h : q.Inv) : q.queueRemove.Inv := by
  refine ⟨h.size, h.head, ?_⟩
  obtain ⟨_, _, _⟩ := h
  change pseudoModulo (q.tail + 1) q.numEntries < q.numEntries
  unfold pseudoModulo
  split_ifs <;> omega

theorem queueCount_put (h : q.Inv) (hroom : q.queueIsFull = false) (e : FrameStruct) :
    (q.put e).queueCount = q.queueCount + 1 := by
  have hfull : q.queueCount ≠ q.numEntries - 1 := by
    simpa [queueIsFull, eq_comm] using hroom
  rw [queueCount_eq (inv_put h e)]
  rw [queueCount_eq h] at hfull ⊢
  obtain ⟨_, _, _⟩ := h
  simp only [put, queueAdd, pseudoModulo]
  split_ifs at hfull ⊢ <;> omega

/-- A queue with room takes an entry behind the others. -/
theorem entries_put (h : q.Inv) (hroom : q.queueIsFull = false) (e : FrameStruct) :
    (q.put e).entries = q.entries ++ [e] := by
  rw [entries, queueCount_put h hroom]
  change ringContent q.numEntries (Function.update q.pEntries q.head e) q.tail
    (q.queueCount + 1) = _
  rw [head_eq h]
  exact ringContent_push _ _ (queueCount_lt h)

theorem queueCount_queueRemove (h : q.Inv) (hne : q.queueIsEmpty = false) :
    q.queueRemove.queueCount + 1 = q.queueCount := by
  have hne : q.head ≠ q.tail := by simpa [queueIsEmpty] using hne
  rw [queueCount_eq (inv_queueRemove h), queueCount_eq h]
  obtain ⟨_, _, _⟩ := h
  simp only [queueRemove, pseudoModulo]
  split_ifs <;> omega

/-- An entry that leaves the queue makes room for another one. -/
theorem queueIsFull_queueRemove (h : q.Inv) (hne : q.queueIsEmpty = false) :
    q.queueRemove.queueIsFull = false := by
  have hcount := queueCount_queueRemove h hne
  have hlt := queueCount_lt h
  simp only [queueIsFull, decide_eq_false_iff_not]
  change ¬ q.numEntries - 1 = _
  omega

/-- The oldest entry leaves the queue first. -/
theorem entries_queueRemove (h : q.Inv) (hne : q.queueIsEmpty = false) :
    q.entries = q.pEntries q.tail :: q.queueRemove.entries := by
  have htail : q.queueRemove.tail = (q.tail + 1) % q.numEntries :=
    pseudoModulo_eq (by have := h.size; have := h.tail; omega)
  rw [entries, ← queueCount_queueRemove h hne, ringContent_succ, Nat.mod_eq_of_lt h.tail, entries,
    htail]
  exact congrArg (q.pEntries q.tail :: ·) ringContent_mod.symm

end MacQueue

end BmCore.Drivers
