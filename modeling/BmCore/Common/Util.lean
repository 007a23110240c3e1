import Mathlib.Algebra.Group.Nat.Defs

/-!
# Error codes, time and patterns

`BmErr` is the return type of every fallible call of the stack (`common/util.h`).
`bm_wildcard_match` compares topics with patterns (`common/util.c`).
-/
namespace BmCore

/-- The error codes of `util.h`; `BmOK` is `ok`. -/
inductive BmErr where
  | ok | eperm | enoent | eio | enxio | eagain | enomem | eacces | enodev | einval | enodata
  | etime | enonet | ebadmsg | emsgsize | enetdown | etimedout | econnrefused | ehostdown
  | ehostunreach | ealready | einprogress | ecanceled | enotintrec
  deriving DecidableEq, Repr

/-- `time_remaining` -/
def timeRemaining (start current timeout : UInt32) : UInt32 :=
  let remaining := ((start + timeout) - current).toInt32
  if remaining < 0 then 0 else remaining.toUInt32

/-! ## Patterns -/

section Patterns
variable (str pattern : List UInt8)

/-- The first loop of `bm_wildcard_match`, for as many rounds as `fuel` allows: the index into the
pattern at its end. -/
def wildcardLoop : Nat → (i j matchIdx : Nat) → (starIdx : Option Nat) → Nat
  | 0, _, j, _, _ => j
  | fuel + 1, i, j, matchIdx, starIdx =>
    if i < str.length then
      if j < pattern.length ∧ (pattern.getD j 0 = 0x3F ∨ str.getD i 0 = pattern.getD j 0) then
        wildcardLoop fuel (i + 1) (j + 1) matchIdx starIdx
      else if j < pattern.length ∧ pattern.getD j 0 = 0x2A then
        wildcardLoop fuel i (j + 1) i (some j)
      else match starIdx with
        -- no match, back to the last star
        | some star => wildcardLoop fuel (matchIdx + 1) (star + 1) (matchIdx + 1) starIdx
        | none => j
    else j

/-- `bm_wildcard_match`: a star is read again at most once for each byte of the string. -/
def bmWildcardMatch : Bool :=
  let j := wildcardLoop str pattern ((str.length + 1) * (pattern.length + 1)) 0 0 0 none
  ((pattern.drop j).dropWhile (· == 0x2A)).isEmpty

end Patterns

/-- A string that is read along a pattern with the same bytes is read to its end. -/
theorem wildcardLoop_self (str : List UInt8) {fuel i : Nat} (hi : i ≤ str.length)
    (hfuel : str.length < fuel + i) : wildcardLoop str str fuel i i 0 none = str.length := by
  induction fuel generalizing i with
  | zero => omega
  | succ fuel ih =>
    unfold wildcardLoop
    by_cases hlt : i < str.length
    · simp only [hlt, if_true, or_true, and_true]
      exact ih hlt (by omega)
    · simp only [hlt, if_false]
      omega

/-- A topic matches itself, also with wildcards in it. -/
theorem bmWildcardMatch_self (str : List UInt8) : bmWildcardMatch str str = true := by
  have hloop := wildcardLoop_self str (Nat.zero_le _)
    (show str.length < (str.length + 1) * (str.length + 1) + 0 by
      have := Nat.le_mul_of_pos_right (str.length + 1) (show 0 < str.length + 1 by omega)
      omega)
  rw [bmWildcardMatch, hloop, List.drop_length]
  rfl

end BmCore
