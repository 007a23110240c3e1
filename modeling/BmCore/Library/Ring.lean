import Mathlib.Data.List.Basic
import Mathlib.Data.Nat.Basic
import Mathlib.Logic.Function.Basic
import Mathlib.Order.Basic

/-!
# Rings of cells

A ring buffer is an array of `n` cells and an index that goes back to the first cell behind the
last one. `ringContent` reads `count` cells off, whatever cell it starts in; the loops that copy
into a ring and out of it are `RingIndex.write` and `RingIndex.read`.
-/
namespace BmCore.Library

variable {α ι : Type} {n : Nat} {cells cells' : Nat → α}

/-- What is in `count` cells of a ring of `n`, from cell `head` on. -/
def ringContent (n : Nat) (cells : Nat → α) (head count : Nat) : List α :=
  (List.range count).map fun i => cells ((head + i) % n)

section Content
variable {head count : Nat}

@[simp] theorem ringContent_length : (ringContent n cells head count).length = count := by
  simp [ringContent]

@[simp] theorem ringContent_zero : ringContent n cells head 0 = [] := rfl

@[simp] theorem ringContent_mod :
    ringContent n cells (head % n) count = ringContent n cells head count := by
  simp [ringContent, Nat.add_mod]

theorem ringContent_add (a b : Nat) : ringContent n cells head (a + b) =
    ringContent n cells head a ++ ringContent n cells (head + a) b := by
  simp [ringContent, List.range_add, Nat.add_assoc]

theorem ringContent_one : ringContent n cells head 1 = [cells (head % n)] := rfl

/-- The oldest cell comes first. -/
theorem ringContent_succ : ringContent n cells head (count + 1) =
    cells (head % n) :: ringContent n cells (head + 1) count := by
  rw [Nat.add_comm, ringContent_add, ringContent_one, List.singleton_append]

theorem ringContent_congr
    (h : ∀ i, i < count → cells' ((head + i) % n) = cells ((head + i) % n)) :
    ringContent n cells' head count = ringContent n cells head count := by
  apply List.map_congr_left
  intro i hi
  exact h i (List.mem_range.mp hi)

/-- A window of a content. -/
theorem ringContent_split {a b : Nat} {xs ys : List α} (ha : xs.length = a)
    (h : ringContent n cells head (a + b) = xs ++ ys) :
    ringContent n cells head a = xs ∧ ringContent n cells (head + a) b = ys := by
  rw [ringContent_add] at h
  exact List.append_inj h (by rw [ringContent_length, ha])

end Content

/-- Cells less than a whole turn apart are different ones. -/
theorem ring_ne {head a b : Nat} (hab : a < b) (hb : b < a + n) :
    (head + a) % n ≠ (head + b) % n := by
  intro heq
  have hdvd : n ∣ (head + b) - (head + a) :=
    Nat.dvd_of_mod_eq_zero (Nat.sub_mod_eq_zero_of_mod_eq heq.symm)
  have hle := Nat.le_of_dvd (by omega) hdvd
  omega

/-- Writing behind the content extends it. -/
theorem ringContent_push (cells : Nat → α) {head count : Nat} (x : α) (hroom : count < n) :
    ringContent n (Function.update cells ((head + count) % n) x) head (count + 1) =
      ringContent n cells head count ++ [x] := by
  have hkept : ringContent n (Function.update cells ((head + count) % n) x) head count =
      ringContent n cells head count := by
    apply ringContent_congr
    intro i hi
    exact Function.update_of_ne (ring_ne hi (by omega)) _ _
  rw [ringContent_add, hkept, ringContent_one, Function.update_self]

/-- Writing in front of the content extends it at the other end. -/
theorem ringContent_push_front (cells : Nat → α) {head count front : Nat} (x : α)
    (hroom : count < n) (hfront : (front + 1) % n = head % n) :
    ringContent n (Function.update cells (front % n) x) front (count + 1) =
      x :: ringContent n cells head count := by
  have hkept : ringContent n (Function.update cells (front % n) x) (front + 1) count =
      ringContent n cells (front + 1) count := by
    apply ringContent_congr
    intro i hi
    refine Function.update_of_ne ?_ _ _
    have hne : (front + 0) % n ≠ (front + (1 + i)) % n := ring_ne (by omega) (by omega)
    rw [Nat.add_assoc]
    exact hne.symm
  rw [ringContent_succ, hkept, Function.update_self, ← ringContent_mod, hfront, ringContent_mod]

/-- The indices of a ring of `n` cells. -/
structure RingIndex (ι : Type) (n : Nat) where
  /-- the cell -/
  pos : ι → Nat
  /-- the index of the cell behind it -/
  next : ι → ι
  pos_next : ∀ i, pos i < n → pos (next i) = (pos i + 1) % n

namespace RingIndex
variable (r : RingIndex ι n)

/-- The loop that copies `count` cells of `src` into the ring. -/
def write (src : Nat → α) (count : Nat) (cells : Nat → α) (t : ι) : (Nat → α) × ι :=
  (List.range count).foldl
    (fun (cells, t) i => (Function.update cells (r.pos t) (src i), r.next t)) (cells, t)

/-- The loop that copies `count` cells of the ring to `dst`. -/
def read (cells : Nat → α) (count : Nat) (dst : Nat → α) (h : ι) : (Nat → α) × ι :=
  (List.range count).foldl
    (fun (dst, h) i => (Function.update dst i (cells (r.pos h)), r.next h)) (dst, h)

variable {r} {t h : ι} {src dst : Nat → α} {head used count : Nat}

theorem write_succ : r.write src (count + 1) cells t =
    (Function.update (r.write src count cells t).1 (r.pos (r.write src count cells t).2)
      (src count), r.next (r.write src count cells t).2) := by
  simp [write, List.range_succ]

theorem read_succ : r.read cells (count + 1) dst h =
    (Function.update (r.read cells count dst h).1 count
      (cells (r.pos (r.read cells count dst h).2)), r.next (r.read cells count dst h).2) := by
  simp [read, List.range_succ]

theorem write_pos (ht : r.pos t < n) (src cells : Nat → α) (count : Nat) :
    r.pos (r.write src count cells t).2 = (r.pos t + count) % n := by
  induction count with
  | zero => simpa [write] using (Nat.mod_eq_of_lt ht).symm
  | succ count ih =>
    have hlt : r.pos (r.write src count cells t).2 < n := by
      rw [ih]
      exact Nat.mod_lt _ (by omega)
    rw [write_succ, r.pos_next _ hlt, ih, Nat.mod_add_mod, Nat.add_assoc]

theorem read_pos (hh : r.pos h < n) (cells dst : Nat → α) (count : Nat) :
    r.pos (r.read cells count dst h).2 = (r.pos h + count) % n := by
  induction count with
  | zero => simpa [read] using (Nat.mod_eq_of_lt hh).symm
  | succ count ih =>
    have hlt : r.pos (r.read cells count dst h).2 < n := by
      rw [ih]
      exact Nat.mod_lt _ (by omega)
    rw [read_succ, r.pos_next _ hlt, ih, Nat.mod_add_mod, Nat.add_assoc]

/-- Copying into free cells behind the content appends what is copied. -/
theorem write_content (ht : r.pos t = (head + used) % n) (hn : 0 < n) (hroom : used + count ≤ n) :
    ringContent n (r.write src count cells t).1 head (used + count) =
      ringContent n cells head used ++ (List.range count).map src := by
  induction count with
  | zero => simp [write]
  | succ count ih =>
    have hlt : r.pos t < n := ht ▸ Nat.mod_lt _ hn
    have hpos : r.pos (r.write src count cells t).2 = (head + (used + count)) % n := by
      rw [write_pos hlt, ht, Nat.mod_add_mod, Nat.add_assoc]
    rw [write_succ, hpos, ← Nat.add_assoc used, ringContent_push _ _ (by omega), ih (by omega),
      List.range_succ, List.map_append, List.append_assoc]
    rfl

/-- What the loop out of the ring leaves behind. -/
theorem read_apply (hh : r.pos h < n) (i : Nat) : (r.read cells count dst h).1 i =
    if i < count then cells ((r.pos h + i) % n) else dst i := by
  induction count with
  | zero => rfl
  | succ count ih =>
    rw [read_succ, read_pos hh]
    by_cases hi : i = count
    · subst hi
      simp
    · have hbound : i < count + 1 ↔ i < count := by omega
      simp [Function.update_of_ne hi, ih, hbound]

/-- The loop out of the ring copies the content. -/
theorem read_content (hh : r.pos h < n) (cells dst : Nat → α) (count : Nat) :
    (List.range count).map (r.read cells count dst h).1 =
      ringContent n cells (r.pos h) count := by
  apply List.map_congr_left
  intro i hi
  rw [read_apply hh, if_pos (List.mem_range.mp hi)]

end RingIndex

/-- Indices as wide as a machine word. -/
def RingIndex.uint32 (n : UInt32) : RingIndex UInt32 n.toNat where
  pos := UInt32.toNat
  next := fun i => (i + 1) % n
  pos_next := by
    intro i hi
    have hn := n.toNat_lt
    have hnext : (i + 1).toNat = i.toNat + 1 := by
      rw [UInt32.toNat_add, UInt32.toNat_one]
      omega
    rw [UInt32.toNat_mod, hnext]

end BmCore.Library
