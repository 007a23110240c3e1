import Mathlib.Data.Nat.Basic

/-!
# Longest runs

Runs of indices with a property, and the first of the longest of them. A scan from left to right
knows it after every index, if it also knows the run that the index ends. -/
namespace BmCore.Library

section
variable (p : Nat → Prop)

/-- The `len` indices from `start` on are below `n` and have the property. -/
def IsRun (n start len : Nat) : Prop :=
  start + len ≤ n ∧ ∀ i, start ≤ i → i < start + len → p i

structure FirstLongest (n start len : Nat) : Prop where
  run : IsRun p n start len
  pos : 0 < len
  longest : ∀ i k, IsRun p n i k → k ≤ len
  first : ∀ i, IsRun p n i len → start ≤ i

/-- The first longest run below `n`, if any index has the property. -/
def Longest (n : Nat) : Option Nat → Nat → Prop
  | none, len => len = 0 ∧ ∀ i < n, ¬ p i
  | some start, len => FirstLongest p n start len

/-- The `len` last indices below `n` have the property, and the one before has not. -/
structure Trailing (n len : Nat) : Prop where
  le : len ≤ n
  all : ∀ i, n ≤ i + len → i < n → p i
  before : ∀ i, i + len + 1 = n → ¬ p i

end

variable {p : Nat → Prop} {n start len : Nat} {found : Option Nat}

theorem FirstLongest.unique {start' len' : Nat} (h : FirstLongest p n start len)
    (h' : FirstLongest p n start' len') : start = start' ∧ len = len' := by
  have hlen : len = len' := le_antisymm (h'.longest _ _ h.run) (h.longest _ _ h'.run)
  subst hlen
  exact ⟨le_antisymm (h.first _ h'.run) (h'.first _ h.run), rfl⟩

/-- A run below `n + 1` is one below `n`, or it ends there. -/
theorem IsRun.below_or_ends (h : IsRun p (n + 1) start len) :
    IsRun p n start len ∨ start + len = n + 1 := by
  by_cases hend : start + len = n + 1
  · exact .inr hend
  · have hle := h.1
    exact .inl ⟨by omega, h.2⟩

theorem IsRun.succ (h : IsRun p n start len) : IsRun p (n + 1) start len :=
  ⟨Nat.le_succ_of_le h.1, h.2⟩

theorem Longest.le (h : Longest p n found len) {i k : Nat} (hrun : IsRun p n i k) : k ≤ len := by
  cases found with
  | none =>
    obtain ⟨rfl, hnone⟩ := h
    by_contra hpos
    exact hnone i (by have hle := hrun.1; omega) (hrun.2 i le_rfl (by omega))
  | some start => exact h.longest i k hrun

/-- A run that ends at `n` is no longer than the trailing one. -/
theorem Trailing.le_of_ends {c i k : Nat} (h : Trailing p n c) (hrun : IsRun p n i k)
    (hend : i + k = n) : k ≤ c := by
  by_contra hlong
  refine h.before (n - c - 1) (by omega) (hrun.2 _ (by omega) (by omega))

theorem Trailing.le_of_ends_succ {c i k : Nat} (h : Trailing p n c) (hrun : IsRun p (n + 1) i k)
    (hend : i + k = n + 1) : k ≤ c + 1 := by
  rcases Nat.eq_zero_or_pos k with rfl | hpos
  · exact Nat.zero_le _
  · have hshort : IsRun p n i (k - 1) := ⟨by omega, fun j hj hlt => hrun.2 j hj (by omega)⟩
    have hle := h.le_of_ends hshort (by omega)
    omega

theorem Trailing.zero : Trailing p 0 0 :=
  ⟨le_rfl, fun _ _ hlt => absurd hlt (Nat.not_lt_zero _), fun _ h => absurd h (Nat.succ_ne_zero _)⟩

theorem Trailing.skip (hp : ¬ p n) : Trailing p (n + 1) 0 :=
  ⟨Nat.zero_le _, fun i hle hlt => by omega, fun i hi => by
    obtain rfl : i = n := by omega
    exact hp⟩

theorem Trailing.extend {c : Nat} (h : Trailing p n c) (hp : p n) : Trailing p (n + 1) (c + 1) := by
  refine ⟨Nat.succ_le_succ h.le, fun i hle hlt => ?_, fun i hi => h.before i (by omega)⟩
  rcases Nat.lt_succ_iff_lt_or_eq.mp hlt with hbelow | rfl
  · exact h.all i (by omega) hbelow
  · exact hp

theorem Longest.zero : Longest p 0 none 0 := ⟨rfl, fun _ h => absurd h (Nat.not_lt_zero _)⟩

theorem Longest.skip (h : Longest p n found len) (hp : ¬ p n) : Longest p (n + 1) found len := by
  have hsame : ∀ i k, 0 < k → IsRun p (n + 1) i k → IsRun p n i k := by
    intro i k hk hrun
    rcases hrun.below_or_ends with hbelow | hend
    · exact hbelow
    · exact absurd (hrun.2 n (by omega) (by omega)) hp
  cases found with
  | none =>
    refine ⟨h.1, fun i hi => ?_⟩
    rcases Nat.lt_succ_iff_lt_or_eq.mp hi with hbelow | rfl
    · exact h.2 i hbelow
    · exact hp
  | some start =>
    refine ⟨h.run.succ, h.pos, fun i k hrun => ?_, fun i hrun => h.first i (hsame i len h.pos hrun)⟩
    rcases Nat.eq_zero_or_pos k with rfl | hk
    · exact Nat.zero_le _
    · exact h.longest i k (hsame i k hk hrun)

/-- The trailing run gets longer and takes over. -/
theorem Longest.take_over {c : Nat} (h : Longest p n found len) (ht : Trailing p n c) (hp : p n)
    (hlonger : len < c + 1) : FirstLongest p (n + 1) (n - c) (c + 1) := by
  have hle := ht.le
  refine ⟨⟨by omega, fun i hi hlt => ?_⟩, Nat.succ_pos c, fun i k hrun => ?_, fun i hrun => ?_⟩
  · exact (ht.extend hp).all i (by omega) (by omega)
  · rcases hrun.below_or_ends with hbelow | hend
    · have hk := h.le hbelow
      omega
    · exact ht.le_of_ends_succ hrun hend
  · rcases hrun.below_or_ends with hbelow | hend
    · have hk := h.le hbelow
      omega
    · omega

/-- The trailing run gets longer, but not longer than the longest. -/
theorem Longest.keep {c : Nat} (h : Longest p n found len) (ht : Trailing p n c)
    (hshort : c + 1 ≤ len) : Longest p (n + 1) found len := by
  cases found with
  | none =>
    have hzero := h.1
    omega
  | some start =>
    refine ⟨h.run.succ, h.pos, fun i k hrun => ?_, fun i hrun => ?_⟩
    · rcases hrun.below_or_ends with hbelow | hend
      · exact h.longest i k hbelow
      · exact Nat.le_trans (ht.le_of_ends_succ hrun hend) hshort
    · rcases hrun.below_or_ends with hbelow | hend
      · exact h.first i hbelow
      · have hstart := h.run.1
        omega

end BmCore.Library
