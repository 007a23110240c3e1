import Mathlib.Data.List.Basic
import Mathlib.Data.List.TakeWhile

/-!
# Strings of C in buffers of a fixed size

A string is given by the bytes at a pointer; where the list ends there are NULs. `strncmp` looks at
no byte behind the first NUL, and `snprintf` cuts a string to the size of its buffer.
-/
namespace BmCore.Library

/-- `n` bytes of memory. -/
structure Buffer (n : Nat) where
  bytes : List UInt8
  length_eq : bytes.length = n
  deriving DecidableEq

namespace Buffer
variable {n : Nat} (b : Buffer n) {data : List UInt8}

/-- Copies bytes to the front of the buffer; what does not fit is dropped. -/
def put (data : List UInt8) : Buffer n :=
  ⟨(data ++ b.bytes.drop data.length).take n, by simp [b.length_eq]; omega⟩

theorem put_bytes (h : data.length ≤ n) :
    (b.put data).bytes = data ++ b.bytes.drop data.length := by
  refine List.take_of_length_le ?_
  simp [b.length_eq]
  omega

theorem ext_bytes {a b : Buffer n} (h : a.bytes = b.bytes) : a = b := by
  cases a
  cases b
  cases h
  rfl

end Buffer

/-- The bytes before the first NUL. -/
def cString (s : List UInt8) : List UInt8 := s.takeWhile (· != 0)

/-- The first `n` bytes at a pointer. -/
def chars (n : Nat) (s : List UInt8) : List UInt8 := (s ++ List.replicate n 0).take n

/-- `strncmp(a, b, n) == 0` -/
def strncmpEq : List UInt8 → List UInt8 → Nat → Bool
  | _, _, 0 => true
  | a, b, n + 1 => a.headD 0 == b.headD 0 && (a.headD 0 == 0 || strncmpEq a.tail b.tail n)

/-- `snprintf(b, n, "%s", s)` -/
def snprintf {n : Nat} (b : Buffer n) (s : List UInt8) : Buffer n :=
  b.put ((cString s).take (n - 1) ++ [0])

@[simp] theorem length_chars (n : Nat) (s : List UInt8) : (chars n s).length = n := by
  simp [chars]

theorem zero_notMem_cString (s : List UInt8) : 0 ∉ cString s := by
  intro h
  simpa using List.mem_takeWhile_imp h

/-- A string ends at its first NUL. -/
theorem cString_append_zero {t : List UInt8} (h : 0 ∉ t) (rest : List UInt8) :
    cString (t ++ 0 :: rest) = t := by
  have ht : ∀ x ∈ t, (x != 0) = true := by
    intro x hx
    simp only [bne_iff_ne, ne_eq]
    rintro rfl
    exact h hx
  rw [cString, List.takeWhile_append_of_pos ht]
  simp

theorem cString_append_of_mem {t : List UInt8} (h : 0 ∈ t) (rest : List UInt8) :
    cString (t ++ rest) = cString t := by
  induction t with
  | nil => simp at h
  | cons x t ih =>
    by_cases hx : x = 0
    · simp [cString, hx]
    · have hmem : 0 ∈ t := (List.mem_cons.mp h).resolve_left (Ne.symm hx)
      have htail := ih hmem
      rw [cString, cString] at htail
      simp [cString, hx, htail]

theorem cString_eq_self {t : List UInt8} (h : 0 ∉ t) : cString t = t := by
  refine List.takeWhile_eq_self_iff.mpr fun x hx => ?_
  simp only [bne_iff_ne, ne_eq]
  rintro rfl
  exact h hx

theorem cString_chars (n : Nat) (s : List UInt8) : cString (chars n s) = (cString s).take n := by
  induction n generalizing s with
  | zero => simp [chars, cString]
  | succ n ih =>
    have hrest : ∀ s : List UInt8, (s ++ List.replicate (n + 1) 0).take n = chars n s := by
      intro s
      rw [chars, List.replicate_succ', ← List.append_assoc, List.take_append_of_le_length]
      simp
    cases s with
    | nil => simp [chars, cString, List.replicate_succ]
    | cons x s =>
      have hchars : chars (n + 1) (x :: s) = x :: chars n s := by
        rw [← hrest]
        rfl
      rw [hchars, cString, cString, List.takeWhile_cons, List.takeWhile_cons]
      split
      · rw [List.take_succ_cons, ← cString, ih, cString]
      · simp

theorem strncmpEq_iff (n : Nat) (a b : List UInt8) :
    strncmpEq a b n = true ↔ (cString a).take n = (cString b).take n := by
  induction n generalizing a b with
  | zero => simp [strncmpEq]
  | succ n ih =>
    have hcons : ∀ s : List UInt8, (cString s).take (n + 1) =
        if s.headD 0 = 0 then [] else s.headD 0 :: (cString s.tail).take n := by
      intro s
      cases s with
      | nil => simp [cString]
      | cons x s =>
        by_cases hx : x = 0
        · simp [cString, hx]
        · simp [cString, hx]
    rw [hcons a, hcons b, strncmpEq, Bool.and_eq_true, Bool.or_eq_true, beq_iff_eq, beq_iff_eq, ih]
    generalize a.headD 0 = x
    generalize b.headD 0 = y
    by_cases hx : x = 0
    · by_cases hy : y = 0
      · simp [hx, hy]
      · simp [hx, hy, Ne.symm hy]
    · by_cases hy : y = 0 <;> simp [hx, hy]

/-- What `strncmp` sees of a string behind `snprintf`. -/
theorem cString_snprintf {n : Nat} (hn : 0 < n) (b : Buffer n) (s : List UInt8) :
    cString (snprintf b s).bytes = (cString s).take (n - 1) := by
  have hlength : ((cString s).take (n - 1) ++ [0]).length ≤ n := by
    simp only [List.length_append, List.length_take, List.length_cons, List.length_nil]
    omega
  rw [snprintf, Buffer.put_bytes _ hlength, List.append_assoc]
  exact cString_append_zero (fun h => zero_notMem_cString s (List.mem_of_mem_take h)) _

/-- A string without a NUL before its last byte is known from the bytes before its first NUL. -/
theorem eq_of_cString_eq {a b : List UInt8} (h : 0 ∉ a.dropLast) (hlength : a.length = b.length)
    (hstring : cString a = cString b) : a = b := by
  induction a generalizing b with
  | nil => exact (List.eq_nil_of_length_eq_zero hlength.symm).symm
  | cons x a ih =>
    obtain ⟨y, b, rfl⟩ := List.exists_cons_of_length_eq_add_one hlength.symm
    have hlength' : a.length = b.length := by simpa using hlength
    cases a with
    | nil =>
      obtain rfl : b = [] := List.eq_nil_of_length_eq_zero hlength'.symm
      by_cases hx : x = 0 <;> by_cases hy : y = 0 <;> simp_all [cString]
    | cons x' a =>
      rw [List.dropLast_cons_cons, List.mem_cons, not_or] at h
      have hx : x ≠ 0 := fun hx => h.1 hx.symm
      have hy : y ≠ 0 := by
        rintro rfl
        simp [cString, hx] at hstring
      have htail : cString (x' :: a) = cString b ∧ x = y := by
        simpa [cString, hx, hy, and_comm] using hstring
      rw [ih h.2 hlength' htail.1, htail.2]

end BmCore.Library
