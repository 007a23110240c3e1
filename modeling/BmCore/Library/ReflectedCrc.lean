import Mathlib.Algebra.Group.Nat.Defs
import Mathlib.Data.Nat.Bitwise

/-!
# Cyclic redundancy checks, lowest bit first

The register is shifted out at its lowest end, and the polynomial is added to it whenever a 1 has
been shifted out. Shifting is linear, so that a table of what happens to `k` bits stands for `k`
steps, whatever `k` is.
-/
namespace BmCore.Library

variable {poly k : Nat}

/-- One bit is shifted out of the register. -/
def crcBitStep (poly x : Nat) : Nat := x / 2 ^^^ if x.testBit 0 then poly else 0

/-- `n` bits are shifted out of the register. -/
def crcBitSteps (poly : Nat) : (n x : Nat) → Nat
  | 0, x => x
  | n + 1, x => crcBitSteps poly n (crcBitStep poly x)

theorem xor_div_two_pow (x y n : Nat) : (x ^^^ y) / 2 ^ n = x / 2 ^ n ^^^ y / 2 ^ n := by
  apply Nat.eq_of_testBit_eq
  intro i
  simp [Nat.testBit_div_two_pow]

theorem crcBitStep_xor (poly x y : Nat) :
    crcBitStep poly (x ^^^ y) = crcBitStep poly x ^^^ crcBitStep poly y := by
  have hhalf : (x ^^^ y) / 2 = x / 2 ^^^ y / 2 := by simpa using xor_div_two_pow x y 1
  rw [crcBitStep, crcBitStep, crcBitStep, hhalf, Nat.testBit_xor]
  cases x.testBit 0 <;> cases y.testBit 0
  · simp
  · simp [Nat.xor_assoc]
  · simp only [Bool.xor_false, if_true, Bool.false_eq_true, if_false, Nat.xor_zero, Nat.xor_assoc]
    rw [Nat.xor_comm (y / 2)]
  · simp only [Bool.xor_self, Bool.false_eq_true, if_false, if_true, Nat.xor_zero]
    rw [Nat.xor_comm (x / 2) poly, Nat.xor_assoc, ← Nat.xor_assoc (x / 2),
      Nat.xor_comm (x / 2 ^^^ _), ← Nat.xor_assoc, Nat.xor_self, Nat.zero_xor]

theorem crcBitSteps_xor (poly n x y : Nat) :
    crcBitSteps poly n (x ^^^ y) = crcBitSteps poly n x ^^^ crcBitSteps poly n y := by
  induction n generalizing x y with
  | zero => rfl
  | succ n ih => rw [crcBitSteps, crcBitStep_xor, ih, crcBitSteps, crcBitSteps]

theorem crcBitSteps_add (poly m n x : Nat) :
    crcBitSteps poly (m + n) x = crcBitSteps poly n (crcBitSteps poly m x) := by
  induction m generalizing x with
  | zero => rw [Nat.zero_add, crcBitSteps]
  | succ m ih => rw [Nat.add_right_comm, crcBitSteps, ih, crcBitSteps]

/-- Zeros that are shifted out leave no trace. -/
theorem crcBitSteps_two_pow_mul (poly n x : Nat) : crcBitSteps poly n (2 ^ n * x) = x := by
  induction n generalizing x with
  | zero => rw [pow_zero, Nat.one_mul, crcBitSteps]
  | succ n ih =>
    have hstep : crcBitStep poly (2 ^ (n + 1) * x) = 2 ^ n * x := by
      have heven : 2 ^ (n + 1) * x = 2 * (2 ^ n * x) := by
        rw [pow_succ, Nat.mul_comm (2 ^ n), Nat.mul_assoc]
      rw [crcBitStep, heven]
      simp
    rw [crcBitSteps, hstep, ih]

/-- What is above the bits that are shifted out moves down unchanged. -/
theorem crcBitSteps_eq (poly n x : Nat) :
    crcBitSteps poly n x = x / 2 ^ n ^^^ crcBitSteps poly n (x % 2 ^ n) := by
  have hsplit : x = 2 ^ n * (x / 2 ^ n) ^^^ x % 2 ^ n := by
    apply Nat.eq_of_testBit_eq
    intro i
    rw [Nat.testBit_xor, Nat.testBit_two_pow_mul, Nat.testBit_mod_two_pow, Nat.testBit_div_two_pow]
    by_cases hi : n ≤ i
    · simp [hi, Nat.not_lt.mpr hi]
    · simp [hi, Nat.lt_of_not_le hi]
  calc crcBitSteps poly n x
      = crcBitSteps poly n (2 ^ n * (x / 2 ^ n) ^^^ x % 2 ^ n) := by rw [← hsplit]
    _ = x / 2 ^ n ^^^ crcBitSteps poly n (x % 2 ^ n) := by
      rw [crcBitSteps_xor, crcBitSteps_two_pow_mul]

/-- The table says what becomes of `k` bits. -/
def IsCrcTable (poly k : Nat) (table : Nat → Nat) : Prop :=
  ∀ i < 2 ^ k, table i = crcBitSteps poly k i

/-- A step by table stands for as many bits as the table is for. -/
theorem IsCrcTable.step_eq {table : Nat → Nat} (h : IsCrcTable poly k table) (x : Nat) :
    x / 2 ^ k ^^^ table (x % 2 ^ k) = crcBitSteps poly k x := by
  rw [h _ (Nat.mod_lt _ (Nat.two_pow_pos k)), ← crcBitSteps_eq]

end BmCore.Library
