import Mathlib.Algebra.Group.Nat.Defs
import Mathlib.Data.List.Basic
import Mathlib.Data.Nat.Basic

/-!
# Hexadecimal numbers in texts

Numbers with lower-case hexadecimal digits and no leading zeros read back as they were written, and
so do lists of them with a separator that is no digit. -/
namespace BmCore.Library

/-- The value of a digit of either case. -/
def hexVal (c : Char) : Option Nat :=
  if '0' ≤ c ∧ c ≤ '9' then some (c.toNat - '0'.toNat)
  else if 'a' ≤ c ∧ c ≤ 'f' then some (c.toNat - 'a'.toNat + 10)
  else if 'A' ≤ c ∧ c ≤ 'F' then some (c.toNat - 'A'.toNat + 10)
  else none

/-- Read digits behind the ones that gave `acc`. -/
def parseHexFrom (acc : Nat) : List Char → Option Nat
  | [] => some acc
  | c :: cs => (hexVal c).bind fun d => parseHexFrom (acc * 16 + d) cs

def hexText (n : Nat) : List Char := Nat.toDigits 16 n

theorem hexVal_digitChar {d : Nat} (h : d < 16) : hexVal d.digitChar = some d := by
  have hall : ∀ d : Fin 16, hexVal (Nat.digitChar d) = some d.val := by decide
  exact hall ⟨d, h⟩

theorem parseHexFrom_append (acc : Nat) (cs ds : List Char) :
    parseHexFrom acc (cs ++ ds) = (parseHexFrom acc cs).bind fun n => parseHexFrom n ds := by
  induction cs generalizing acc with
  | nil => rfl
  | cons c cs ih =>
    simp only [List.cons_append, parseHexFrom, ih, Option.bind_assoc]

/-- A number reads back. -/
theorem parseHexFrom_hexText (n : Nat) : parseHexFrom 0 (hexText n) = some n := by
  induction n using Nat.strongRecOn with
  | _ n ih =>
    rw [hexText, Nat.toDigits_eq_if (by decide)]
    by_cases hn : n < 16
    · rw [if_pos hn, parseHexFrom, hexVal_digitChar hn]
      simp [parseHexFrom]
    · have hlast := hexVal_digitChar (Nat.mod_lt n (by decide : 0 < 16))
      have hrest := ih (n / 16) (by omega)
      rw [hexText] at hrest
      rw [if_neg hn, parseHexFrom_append, hrest, Option.bind_some, parseHexFrom, hlast,
        Option.bind_some, parseHexFrom, Nat.div_add_mod']

theorem hexText_ne_nil (n : Nat) : hexText n ≠ [] := Nat.toDigits_ne_nil

theorem hexText_length_le {n k : Nat} (hk : 0 < k) (h : n < 16 ^ k) : (hexText n).length ≤ k :=
  (Nat.length_toDigits_le_iff (by decide) hk).mpr h

/-- Only digits are written. -/
theorem hexVal_of_mem_hexText {n : Nat} {c : Char} (h : c ∈ hexText n) : (hexVal c).isSome := by
  induction n using Nat.strongRecOn with
  | _ n ih =>
    rw [hexText, Nat.toDigits_eq_if (by decide)] at h
    by_cases hn : n < 16
    · rw [if_pos hn, List.mem_singleton] at h
      rw [h, hexVal_digitChar hn]
      rfl
    · rw [if_neg hn, List.mem_append, List.mem_singleton] at h
      rcases h with hrest | rfl
      · exact ih (n / 16) (by omega) hrest
      · rw [hexVal_digitChar (Nat.mod_lt n (by decide))]
        rfl

end BmCore.Library
