import Mathlib.Data.Nat.ModEq

/-!
# Ones' complement sums

A ones' complement sum in base `b` is an ordinary sum whose carries are added back at the low end
until none is left. The result represents the sum modulo `b - 1`, and between `1` and `b - 1` it is
the only such number. With base `2 ^ 16`, swapping the two bytes of a word multiplies it by
`2 ^ 8`.
-/
namespace BmCore.Library

/-- Add the carries back until the sum is one digit, in at most `fuel` rounds. -/
def foldCarry (b : Nat) : (fuel s : Nat) → Nat
  | 0, s => s
  | fuel + 1, s => if s / b = 0 then s else foldCarry b fuel (s % b + s / b)

section Fold
variable {b : Nat}

theorem carry_lt (hb : 2 ≤ b) {s : Nat} (h : s / b ≠ 0) : s % b + s / b < s := by
  have hdiv := Nat.div_add_mod s b
  have hpos : 0 < s / b := Nat.pos_of_ne_zero h
  have hmul : 2 * (s / b) ≤ b * (s / b) := Nat.mul_le_mul_right _ hb
  omega

/-- A sum needs no more rounds than its value. -/
theorem foldCarry_lt (hb : 2 ≤ b) {fuel s : Nat} (h : s ≤ fuel) : foldCarry b fuel s < b := by
  induction fuel generalizing s with
  | zero =>
    obtain rfl := Nat.le_zero.mp h
    show 0 < b
    omega
  | succ fuel ih =>
    unfold foldCarry
    split
    next hs => exact (Nat.div_eq_zero_iff_lt (by omega)).mp hs
    next hs =>
      have hlt := carry_lt hb hs
      exact ih (by omega)

theorem carry_modEq (hb : 2 ≤ b) (s : Nat) : s % b + s / b ≡ s [MOD b - 1] := by
  have hone : b ≡ 1 [MOD b - 1] := by
    have h : b = (b - 1) + 1 := by omega
    calc b = (b - 1) + 1 := h
      _ ≡ 0 + 1 [MOD b - 1] := (Nat.modEq_zero_iff_dvd.mpr dvd_rfl).add_right 1
      _ = 1 := by omega
  calc s % b + s / b = s % b + 1 * (s / b) := by omega
    _ ≡ s % b + b * (s / b) [MOD b - 1] := (hone.symm.mul_right _).add_left _
    _ = s := Nat.mod_add_div s b

theorem foldCarry_modEq (hb : 2 ≤ b) (fuel s : Nat) : foldCarry b fuel s ≡ s [MOD b - 1] := by
  induction fuel generalizing s with
  | zero => exact Nat.ModEq.rfl
  | succ fuel ih =>
    unfold foldCarry
    split
    · exact Nat.ModEq.rfl
    · exact (ih _).trans (carry_modEq hb s)

theorem foldCarry_pos (fuel : Nat) {s : Nat} (h : 0 < s) : 0 < foldCarry b fuel s := by
  induction fuel generalizing s with
  | zero => exact h
  | succ fuel ih =>
    unfold foldCarry
    split
    · exact h
    next hs => exact ih (Nat.add_pos_right _ (Nat.pos_of_ne_zero hs))

end Fold

/-- Two digits that are not zero and represent the same sum are the same. -/
theorem eq_of_modEq_of_pos {b x y : Nat} (h : x ≡ y [MOD b - 1]) (hx : 0 < x) (hy : 0 < y)
    (hxb : x < b) (hyb : y < b) : x = y := by
  have hsub : x - 1 ≡ y - 1 [MOD b - 1] := by
    have hx' : x = (x - 1) + 1 := by omega
    have hy' : y = (y - 1) + 1 := by omega
    rw [hx', hy'] at h
    exact Nat.ModEq.add_right_cancel' 1 h
  have hlt : x - 1 = y - 1 := hsub.eq_of_lt_of_lt (by omega) (by omega)
  omega

/-- What the folded sum is. -/
theorem foldCarry_eq_iff {b s x : Nat} (hb : 2 ≤ b) (hs : 0 < s) (hx : 0 < x) (hxb : x < b) :
    foldCarry b s s = x ↔ s ≡ x [MOD b - 1] := by
  have hmod := foldCarry_modEq hb s s
  refine ⟨fun h => ?_, fun h => ?_⟩
  · rw [h] at hmod
    exact hmod.symm
  · exact eq_of_modEq_of_pos (hmod.trans h) (foldCarry_pos s hs) hx
      (foldCarry_lt hb le_rfl) hxb

/-! ## Words of two bytes -/

/-- The 16-bit words of a byte string in network order, added up; an odd last byte is a high
byte. -/
def sumWords : List UInt8 → Nat
  | hi :: lo :: bs => hi.toNat * 256 + lo.toNat + sumWords bs
  | [hi] => hi.toNat * 256
  | [] => 0

/-- What a byte at index `i` counts. -/
def byteWeight (i : Nat) : Nat := if i % 2 = 0 then 256 else 1

theorem byteWeight_add_two (i : Nat) : byteWeight (i + 2) = byteWeight i := by
  unfold byteWeight
  rw [Nat.add_mod_right]

/-- Replacing a byte moves the sum by its weight. -/
theorem sumWords_set (bs : List UInt8) (i : Nat) (v : UInt8) (h : i < bs.length) :
    sumWords (bs.set i v) + byteWeight i * (bs.getD i 0).toNat =
      sumWords bs + byteWeight i * v.toNat := by
  induction bs using sumWords.induct generalizing i with
  | case1 hi lo bs ih =>
    match i with
    | 0 | 1 =>
      simp [sumWords, byteWeight]
      omega
    | i + 2 =>
      have hrest := ih i (by simpa using h)
      rw [byteWeight_add_two]
      simp only [List.set_cons_succ, sumWords, List.getD_cons_succ] at hrest ⊢
      omega
  | case2 hi =>
    obtain rfl : i = 0 := by simpa using h
    simp [sumWords, byteWeight]
    omega
  | case3 => simp at h

/-- Words do not straddle a prefix of whole words. -/
theorem sumWords_append {as : List UInt8} (h : as.length % 2 = 0) (bs : List UInt8) :
    sumWords (as ++ bs) = sumWords as + sumWords bs := by
  induction as using sumWords.induct with
  | case1 hi lo as ih =>
    have hrest : as.length % 2 = 0 := by
      simp only [List.length_cons] at h
      omega
    have hih := ih hrest
    simp only [List.cons_append, sumWords, hih]
    omega
  | case2 hi => simp at h
  | case3 => simp [sumWords]

theorem sumWords_le (bs : List UInt8) : sumWords bs ≤ 32768 * bs.length + 32768 := by
  induction bs using sumWords.induct with
  | case1 hi lo bs ih =>
    have h₁ := hi.toNat_lt
    have h₂ := lo.toNat_lt
    simp only [sumWords, List.length_cons]
    omega
  | case2 hi =>
    have h₁ := hi.toNat_lt
    simp only [sumWords, List.length_cons, List.length_nil]
    omega
  | case3 => simp [sumWords]

end BmCore.Library
