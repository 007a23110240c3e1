import Mathlib.Algebra.Group.Nat.Defs
import Mathlib.Data.Nat.Basic
import Mathlib.Data.Nat.Bitwise

/-!
# Bit fields and parity

A word whose fields lie one above the other, the first one in the lowest bits, and the parity of
the bits of a word.

## Main definitions

* `packBits`: the word of a list of field values.
* `bitField`: the value of one field of a word.
* `parity`: whether an odd number of the lowest bits is set.
-/
namespace BmCore.Library

/-! ## Fields -/

/-- The word of the values `vs` in fields as wide as `ws` says. A field keeps the lower bits of a
value that does not fit. -/
def packBits : (ws vs : List Nat) → Nat
  | w :: ws, v :: vs => v % 2 ^ w + 2 ^ w * packBits ws vs
  | _, _ => 0

/-- The field of `w` bits that starts at bit `off`. -/
def bitField (n off w : Nat) : Nat := n / 2 ^ off % 2 ^ w

theorem bitField_lt (n off w : Nat) : bitField n off w < 2 ^ w := Nat.mod_lt _ (Nat.two_pow_pos _)

theorem packBits_lt (ws vs : List Nat) : packBits ws vs < 2 ^ ws.sum := by
  fun_induction packBits ws vs with
  | case1 w ws v vs ih =>
    have hv : v % 2 ^ w < 2 ^ w := Nat.mod_lt _ (Nat.two_pow_pos _)
    calc v % 2 ^ w + 2 ^ w * packBits ws vs
        < 2 ^ w * (packBits ws vs + 1) := by rw [Nat.mul_add, Nat.mul_one]; omega
      _ ≤ 2 ^ w * 2 ^ ws.sum := Nat.mul_le_mul_left _ ih
      _ = 2 ^ (w :: ws).sum := by rw [List.sum_cons, pow_add]
  | case2 => exact Nat.two_pow_pos _

/-- Behind the first field the others follow. -/
theorem packBits_shift (w v : Nat) (ws vs : List Nat) (off : Nat) :
    packBits (w :: ws) (v :: vs) / 2 ^ (w + off) = packBits ws vs / 2 ^ off := by
  have hv : v % 2 ^ w < 2 ^ w := Nat.mod_lt _ (Nat.two_pow_pos _)
  rw [pow_add, ← Nat.div_div_eq_div_mul, packBits, Nat.add_mul_div_left _ _ (Nat.two_pow_pos _),
    Nat.div_eq_of_lt hv, Nat.zero_add]

/-- Every field of a packed word is read back. -/
theorem bitField_packBits {ws vs : List Nat} (i : Nat) {w v : Nat} (hw : ws[i]? = some w)
    (hv : vs[i]? = some v) : bitField (packBits ws vs) (ws.take i).sum w = v % 2 ^ w := by
  induction i generalizing ws vs with
  | zero =>
    cases ws with
    | nil => simp at hw
    | cons w' ws =>
      cases vs with
      | nil => simp at hv
      | cons v' vs =>
        obtain rfl : w' = w := by simpa using hw
        obtain rfl : v' = v := by simpa using hv
        simp [bitField, packBits]
  | succ i ih =>
    cases ws with
    | nil => simp at hw
    | cons w' ws =>
      cases vs with
      | nil => simp at hv
      | cons v' vs =>
        have hrest := ih (by simpa using hw) (by simpa using hv)
        rw [bitField] at hrest ⊢
        rw [List.take_succ_cons, List.sum_cons, packBits_shift, hrest]

/-- A flag of a packed word is read back. -/
theorem testBit_packBits {ws vs : List Nat} (i : Nat) {b : Bool} (hw : ws[i]? = some 1)
    (hv : vs[i]? = some b.toNat) : (packBits ws vs).testBit (ws.take i).sum = b := by
  have hfield := bitField_packBits i hw hv
  rw [bitField, pow_one] at hfield
  rw [Nat.testBit_eq_decide_div_mod_eq, hfield]
  cases b <;> rfl

/-! ## Parity -/

/-- Whether an odd number of the `k` lowest bits of `n` is set. -/
def parity : (k n : Nat) → Bool
  | 0, _ => false
  | k + 1, n => n.testBit 0 ^^ parity k (n / 2)

@[simp] theorem parity_zero_right (k : Nat) : parity k 0 = false := by
  induction k with
  | zero => rfl
  | succ k ih => simp [parity, ih]

theorem parity_add (k l n : Nat) : parity (k + l) n = (parity k n ^^ parity l (n / 2 ^ k)) := by
  induction k generalizing n with
  | zero => simp [parity]
  | succ k ih =>
    rw [Nat.add_right_comm, parity, parity, ih, Nat.div_div_eq_div_mul, pow_succ, Nat.mul_comm 2,
      Bool.xor_assoc]

/-- The bits above the lowest `k` do not count. -/
theorem parity_mod (k n : Nat) : parity k (n % 2 ^ k) = parity k n := by
  induction k generalizing n with
  | zero => rfl
  | succ k ih =>
    have hhalf : n % 2 ^ (k + 1) / 2 = n / 2 % 2 ^ k := by
      rw [pow_succ, Nat.mul_comm, Nat.mod_mul_right_div_self]
    have hlow : (n % 2 ^ (k + 1)).testBit 0 = n.testBit 0 := by simp
    rw [parity, parity, hhalf, hlow, ih]

theorem parity_xor (k m n : Nat) : parity k (m ^^^ n) = (parity k m ^^ parity k n) := by
  induction k generalizing m n with
  | zero => rfl
  | succ k ih =>
    have hhalf : (m ^^^ n) / 2 = m / 2 ^^^ n / 2 := by
      apply Nat.eq_of_testBit_eq
      intro i
      simp [Nat.testBit_div_two]
    rw [parity, hhalf, ih, Nat.testBit_xor, parity, parity]
    cases m.testBit 0 <;> cases n.testBit 0 <;> simp

theorem parity_two_pow {k i : Nat} (h : i < k) : parity k (2 ^ i) = true := by
  induction k generalizing i with
  | zero => omega
  | succ k ih =>
    cases i with
    | zero => simp [parity]
    | succ i =>
      have hhalf : 2 ^ (i + 1) / 2 = 2 ^ i := by rw [pow_succ]; omega
      rw [parity, hhalf, ih (by omega)]
      simp

/-- One flipped bit flips the parity. -/
theorem parity_flip {k i : Nat} (h : i < k) (n : Nat) : parity k (n ^^^ 2 ^ i) = !parity k n := by
  rw [parity_xor, parity_two_pow h, Bool.xor_true]

end BmCore.Library
