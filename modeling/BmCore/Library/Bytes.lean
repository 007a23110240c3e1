import Mathlib.Data.List.Basic
import Mathlib.Data.Nat.Basic
import Mathlib.Tactic.Ring
import Mathlib.Tactic.SplitIfs

/-!
# Bytes, windows and byte-addressed memories

Packed structures are read out of byte lists at fixed offsets, and pages are assembled in
byte-addressed memories. A `window` is what a reader of `len` bytes at an offset sees: the bytes
of the list where it has them and whatever lies behind the allocation elsewhere. `blit` is
`memcpy` into a memory, `peek` reads a range back.
-/
namespace BmCore.Library

/-- The byte a reader finds at index `i`: past the end of `bs` it is the byte of `beyond`. -/
def byteAt (beyond : Nat → UInt8) (bs : List UInt8) (i : Nat) : UInt8 :=
  bs.getD i (beyond i)

/-- `len` consecutive bytes from offset `off`. -/
def window (beyond : Nat → UInt8) (bs : List UInt8) (off len : Nat) : List UInt8 :=
  (List.range len).map fun i => byteAt beyond bs (off + i)

@[simp] theorem window_length (beyond : Nat → UInt8) (bs : List UInt8) (off len : Nat) :
    (window beyond bs off len).length = len := by simp [window]

/-- Inside the list a window is a slice, whatever lies behind it. -/
theorem window_eq_slice (beyond : Nat → UInt8) (bs : List UInt8) {off len : Nat}
    (h : off + len ≤ bs.length) : window beyond bs off len = (bs.drop off).take len := by
  apply List.ext_getElem
  · simp; omega
  · intro i hi _
    have hb : off + i < bs.length := by simp at hi; omega
    simp [window, byteAt, List.getD_eq_getElem?_getD, hb]

/-- Writing a byte that is there already. -/
theorem set_getD_self {α : Type} (xs : List α) (i : Nat) (d : α) : xs.set i (xs.getD i d) = xs := by
  apply List.ext_getElem?
  intro j
  rw [List.getElem?_set]
  split_ifs with hij hlen
  · subst hij
    simp [List.getD_eq_getElem?_getD, hlen]
  · subst hij
    simp [List.getElem?_eq_none (Nat.le_of_not_lt hlen)]
  · rfl

/-- A window that starts behind a prefix is a window of the rest. -/
theorem window_append_right (beyond : Nat → UInt8) (p bs : List UInt8) {n off len : Nat}
    (hp : p.length = n) (h : off + len ≤ bs.length) :
    window beyond (p ++ bs) (n + off) len = window beyond bs off len := by
  subst hp
  rw [window_eq_slice _ _ (by simp; omega), window_eq_slice _ _ h, List.drop_append,
    List.drop_eq_nil_of_le (by omega)]
  simp

/-- A window that ends inside a prefix does not see the rest. -/
theorem window_append_left (beyond : Nat → UInt8) (p bs : List UInt8) {off len : Nat}
    (h : off + len ≤ p.length) :
    window beyond (p ++ bs) off len = window beyond p off len := by
  rw [window_eq_slice _ _ (by simp; omega), window_eq_slice _ _ h, List.drop_append_of_le_length
    (by omega), List.take_append_of_le_length (by simp; omega)]

/-! ## Little-endian integers -/

/-- The value of a little-endian byte string. -/
def leNat : List UInt8 → Nat
  | [] => 0
  | b :: bs => b.toNat + 256 * leNat bs

/-- The `k` low bytes of `n`, least significant first. -/
def leBytes : (k n : Nat) → List UInt8
  | 0, _ => []
  | k + 1, n => UInt8.ofNat n :: leBytes k (n / 256)

@[simp] theorem leBytes_length (k n : Nat) : (leBytes k n).length = k := by
  induction k generalizing n with
  | zero => rfl
  | succ k ih => simp [leBytes, ih]

theorem leNat_lt (bs : List UInt8) : leNat bs < 256 ^ bs.length := by
  induction bs with
  | nil => simp [leNat]
  | cons b bs ih =>
    have hb : b.toNat < 256 := b.toNat_lt
    simp only [leNat, List.length_cons, pow_succ]
    omega

theorem leNat_append (bs cs : List UInt8) : leNat (bs ++ cs) = leNat bs +
    256 ^ bs.length * leNat cs := by
  induction bs with
  | nil => simp [leNat]
  | cons x bs ih =>
    simp only [List.cons_append, leNat, ih, List.length_cons]
    ring

/-- Encoding and decoding agree on every value that fits. -/
theorem leNat_leBytes {k n : Nat} (h : n < 256 ^ k) : leNat (leBytes k n) = n := by
  induction k generalizing n with
  | zero => simp at h; simp [leBytes, leNat, h]
  | succ k ih =>
    have hq : n / 256 < 256 ^ k := by
      rw [pow_succ] at h
      omega
    simp only [leBytes, leNat, ih hq, UInt8.toNat_ofNat']
    omega

theorem leBytes_leNat (bs : List UInt8) : leBytes bs.length (leNat bs) = bs := by
  induction bs with
  | nil => rfl
  | cons b bs ih =>
    have hb := b.toNat_lt
    simp only [List.length_cons, leBytes, leNat]
    rw [show (b.toNat + 256 * leNat bs) / 256 = leNat bs by omega, ih]
    congr 1
    apply UInt8.toNat_inj.mp
    rw [UInt8.toNat_ofNat']
    omega

/-! ## Arrays of records -/

/-- The record at an index of an array. -/
theorem drop_flatMap_range {f : Nat → List UInt8} {n m i : Nat} (hf : ∀ j, (f j).length = n)
    (hi : i < m) : ∃ rest, ((List.range m).flatMap f).drop (n * i) = f i ++ rest := by
  have hlength : ((List.range i).flatMap f).length = n * i := by
    rw [List.length_flatMap, List.map_congr_left fun j _ => hf j]
    simp [Nat.mul_comm]
  obtain ⟨k, rfl⟩ : ∃ k, m = i + (k + 1) := ⟨m - i - 1, by omega⟩
  rw [List.range_add, List.flatMap_append, ← hlength, List.drop_left, List.range_succ_eq_map,
    List.map_cons, List.flatMap_cons]
  exact ⟨_, rfl⟩

/-! ## Byte-addressed memories -/

/-- `memcpy` of `bs` to address `off`. -/
def blit (m : Nat → UInt8) (off : Nat) (bs : List UInt8) : Nat → UInt8 := fun i =>
  if off ≤ i then bs.getD (i - off) (m i) else m i

/-- The `len` bytes at address `off`. -/
def peek (m : Nat → UInt8) (off len : Nat) : List UInt8 :=
  (List.range len).map fun i => m (off + i)

@[simp] theorem peek_length (m : Nat → UInt8) (off len : Nat) :
    (peek m off len).length = len := by simp [peek]

@[simp] theorem peek_zero (m : Nat → UInt8) (off : Nat) : peek m off 0 = [] := rfl

/-- A range splits at any point inside it. -/
theorem peek_add (m : Nat → UInt8) (off a b : Nat) :
    peek m off (a + b) = peek m off a ++ peek m (off + a) b := by
  simp [peek, List.range_add, Nat.add_assoc]

theorem peek_take (m : Nat → UInt8) {off n len : Nat} (h : n ≤ len) :
    (peek m off len).take n = peek m off n := by
  obtain ⟨k, rfl⟩ := Nat.exists_eq_add_of_le h
  rw [peek_add, List.take_left' (peek_length m off n)]

theorem peek_drop (m : Nat → UInt8) {off n len : Nat} (h : n ≤ len) :
    (peek m off len).drop n = peek m (off + n) (len - n) := by
  obtain ⟨k, rfl⟩ := Nat.exists_eq_add_of_le h
  rw [peek_add, List.drop_left' (peek_length m off n), Nat.add_sub_cancel_left]

/-- A copied block reads back. -/
theorem peek_blit_self (m : Nat → UInt8) (off : Nat) (bs : List UInt8) :
    peek (blit m off bs) off bs.length = bs := by
  apply List.ext_getElem
  · simp
  · intro i hi _
    have hb : i < bs.length := by simpa using hi
    simp [peek, blit, List.getD_eq_getElem?_getD, hb]

theorem peek_blit_of_length (m : Nat → UInt8) (off : Nat) {n : Nat} {bs : List UInt8}
    (h : bs.length = n) : peek (blit m off bs) off n = bs := by
  subst h
  exact peek_blit_self m off bs

/-- A copy leaves the addresses in front of it alone. -/
theorem peek_blit_before (m : Nat → UInt8) {off a b : Nat} (bs : List UInt8) (h : a + b ≤ off) :
    peek (blit m off bs) a b = peek m a b := by
  apply List.map_congr_left
  intro i hi
  have : ¬ off ≤ a + i := by have := List.mem_range.mp hi; omega
  simp [blit, this]

/-- A copy leaves the addresses behind it alone. -/
theorem peek_blit_after (m : Nat → UInt8) {off a b : Nat} (bs : List UInt8)
    (h : off + bs.length ≤ a) : peek (blit m off bs) a b = peek m a b := by
  apply List.map_congr_left
  intro i _
  have hle : off ≤ a + i := by omega
  have hnone : bs[a + i - off]? = none := List.getElem?_eq_none (by omega)
  simp [blit, hle, List.getD_eq_getElem?_getD, hnone]

/-- Copying directly behind a range extends it. -/
theorem peek_blit_extend (m : Nat → UInt8) (n : Nat) (bs : List UInt8) :
    peek (blit m n bs) 0 (n + bs.length) = peek m 0 n ++ bs := by
  rw [peek_add, peek_blit_before m bs (by omega), Nat.zero_add, peek_blit_self]

end BmCore.Library
