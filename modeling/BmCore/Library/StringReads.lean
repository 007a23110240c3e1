import BmCore.Library.Accesses
import BmCore.Library.Bytes
import BmCore.Library.CString

/-!
# Reading strings from a buffer

Functions on C strings, byte by byte: they stop as soon as their result is known. What they return
is what the functions on lists say of the bytes that a reader finds, and they stay within the
buffer if it has the bytes that they need.
-/
namespace BmCore.Library

theorem window_succ (beyond : Nat → UInt8) (bs : List UInt8) (off n : Nat) :
    window beyond bs off (n + 1) = byteAt beyond bs off :: window beyond bs (off + 1) n := by
  rw [window, List.range_succ_eq_map, List.map_cons, List.map_map, window, Nat.add_zero]
  refine congrArg (_ :: ·) (List.map_congr_left fun i _ => ?_)
  rw [Function.comp_apply, Nat.succ_eq_add_one, Nat.add_right_comm, Nat.add_assoc]

/-- What `chars` takes is what a reader finds in front of zeros. -/
theorem window_zeros (buf : List UInt8) (off len : Nat) :
    window (fun _ => 0) buf off len = chars len (buf.drop off) := by
  refine List.ext_getElem (by simp) fun i hi hi' => ?_
  simp only [window, byteAt, chars, List.getElem_map, List.getElem_range, List.getElem_take,
    List.getElem_append, List.getElem_drop, List.getElem_replicate, List.length_drop]
  grind

/-- A difference decides a comparison. -/
theorem strncmpEq_append_false {a b : List UInt8} {n : Nat} (h : strncmpEq a b a.length = false)
    (hn : a.length ≤ n) (rest : List UInt8) : strncmpEq (a ++ rest) b n = false := by
  induction a generalizing b n with
  | nil => simp [strncmpEq] at h
  | cons x a ih =>
    obtain ⟨n, rfl⟩ : ∃ k, n = k + 1 := ⟨n - 1, by simp at hn; omega⟩
    simp only [List.length_cons, strncmpEq, List.headD_cons, List.tail_cons, List.cons_append,
      Bool.and_eq_false_iff, Bool.or_eq_false_iff] at h ⊢
    refine h.imp_right ?_
    rintro ⟨hx, hrest⟩
    exact ⟨hx, ih hrest (by simpa using hn)⟩

/-- What follows a string plays no part in a comparison that is decided without it. -/
theorem strncmpEq_append {a b : List UInt8} {n : Nat}
    (h : n ≤ a.length ∨ 0 ∈ a ∨ strncmpEq a b a.length = false) (rest : List UInt8) :
    strncmpEq (a ++ rest) b n = strncmpEq a b n := by
  induction n generalizing a b with
  | zero => rfl
  | succ n ih =>
    cases a with
    | nil => simp [strncmpEq] at h
    | cons x a =>
      simp only [strncmpEq, List.cons_append, List.headD_cons, List.tail_cons]
      by_cases hdiff : x = b.headD 0
      · by_cases hzero : x = 0
        · simp [hzero]
        · have hhead : (x == b.headD 0) = true := by simpa using hdiff
          have hnul : (x == 0) = false := by simpa using hzero
          have hrest : n ≤ a.length ∨ 0 ∈ a ∨ strncmpEq a b.tail a.length = false := by
            refine Or.imp ?_ (Or.imp ?_ fun hfalse => ?_) h
            · exact Nat.le_of_succ_le_succ
            · exact fun hmem => (List.mem_cons.mp hmem).resolve_left fun h => hzero h.symm
            · rwa [List.length_cons, strncmpEq, List.headD_cons, List.tail_cons, hhead, hnul,
                Bool.true_and, Bool.false_or] at hfalse
          rw [ih hrest]
      · have hfalse : (x == b.headD 0) = false := by simpa using hdiff
        rw [hfalse, Bool.false_and, Bool.false_and]

namespace Access

/-- `strncmp(a, b, n) == 0` -/
def strncmpEqAt : (off : Nat) → (b : List UInt8) → (n : Nat) → Access UInt8 Bool
  | _, _, 0 => pure true
  | off, b, n + 1 => do
    let c ← readAt off
    if c ≠ b.headD 0 then pure false
    else if c = 0 then pure true
    else strncmpEqAt (off + 1) b.tail n

/-- All of `n` bytes are of some kind. -/
def allAt (kind : UInt8 → Bool) : (off n : Nat) → Access UInt8 Bool
  | _, 0 => pure true
  | off, n + 1 => do
    let c ← readAt off
    if kind c then allAt kind (off + 1) n else pure false

/-- A string up to its NUL, for as many bytes as the memory has. -/
def cStringAt : (off memory : Nat) → Access UInt8 (List UInt8)
  | _, 0 => pure []
  | off, n + 1 => do
    let c ← readAt off
    if c = 0 then pure []
    else do
      let cs ← cStringAt (off + 1) n
      pure (c :: cs)

variable {beyond : Nat → UInt8} {buf : List UInt8}

theorem run_readAt_byteAt (off : Nat) :
    (readAt off).run beyond buf = (byteAt beyond buf off, buf) := rfl

theorem run_strncmpEqAt {n m : Nat} (off : Nat) (b : List UInt8) (h : n ≤ m) :
    (strncmpEqAt off b n).run beyond buf = (strncmpEq (window beyond buf off m) b n, buf) := by
  induction n generalizing off b m with
  | zero => rfl
  | succ n ih =>
    obtain ⟨m, rfl⟩ : ∃ k, m = k + 1 := ⟨m - 1, by omega⟩
    have hrest := ih (off + 1) b.tail (by omega : n ≤ m)
    rw [strncmpEqAt, run_bind, run_readAt_byteAt, window_succ, strncmpEq, List.headD_cons,
      List.tail_cons]
    generalize byteAt beyond buf off = c
    generalize b.headD 0 = d
    by_cases hdiff : c = d
    · by_cases hzero : c = 0
      · simp [← hdiff, hzero]
      · simp [← hdiff, hzero, hrest]
    · simp [hdiff]

theorem run_allAt (kind : UInt8 → Bool) (off n : Nat) :
    (allAt kind off n).run beyond buf = ((window beyond buf off n).all kind, buf) := by
  induction n generalizing off with
  | zero => rfl
  | succ n ih =>
    rw [allAt, run_bind, run_readAt_byteAt, window_succ, List.all_cons]
    cases hkind : kind (byteAt beyond buf off) with
    | true => simpa using ih (off + 1)
    | false => rfl

theorem run_cStringAt (off n : Nat) :
    (cStringAt off n).run beyond buf = (cString (window beyond buf off n), buf) := by
  induction n generalizing off with
  | zero => rfl
  | succ n ih =>
    rw [cStringAt, run_bind, run_readAt_byteAt, window_succ, cString, List.takeWhile_cons]
    generalize byteAt beyond buf off = c
    by_cases hzero : c = 0
    · simp [hzero]
    · simp [hzero, ih, cString]

/-- A comparison needs its bytes, or a NUL or a difference among those that are there. -/
theorem within_strncmpEqAt_iff {off : Nat} {b : List UInt8} {n : Nat} :
    (strncmpEqAt off b n).Within beyond buf ↔ n = 0 ∨ off + n ≤ buf.length ∨ 0 ∈ buf.drop off ∨
      strncmpEq (buf.drop off) b (buf.drop off).length = false := by
  induction n generalizing off b with
  | zero => exact iff_of_true (within_pure true) (.inl rfl)
  | succ n ih =>
    rw [strncmpEqAt, within_bind, within_readAt, run_readAt]
    by_cases hoff : off < buf.length
    · have hdrop : buf.drop off = buf[off] :: buf.drop (off + 1) := List.drop_eq_getElem_cons hoff
      have hcell : buf.getD off (beyond off) = buf[off] := by simp [hoff]
      rw [hcell, hdrop, List.length_cons, strncmpEq, List.headD_cons, List.tail_cons]
      generalize buf[off] = c
      generalize b.headD 0 = d
      by_cases hdiff : c = d
      · by_cases hzero : c = 0
        · simp [← hdiff, hzero, hoff, within_pure]
        · have hne : ¬ 0 = c := fun h => hzero h.symm
          have hroom : (n = 0 ∨ off + 1 + n ≤ buf.length) ↔ off + (n + 1) ≤ buf.length := by omega
          simp [← hdiff, hzero, hoff, ih, hne, ← hroom, or_assoc]
      · simp [hdiff, hoff, within_pure]
    · have hdrop : buf.drop off = [] := List.drop_eq_nil_of_le (by omega)
      have hshort : ¬ off + (n + 1) ≤ buf.length := by omega
      simp [hdrop, hoff, strncmpEq, hshort]

theorem within_allAt {kind : UInt8 → Bool} {off n : Nat} (h : off + n ≤ buf.length) :
    (allAt kind off n).Within beyond buf := by
  induction n generalizing off with
  | zero => exact within_pure true
  | succ n ih =>
    refine within_bind.mpr ⟨within_readAt.mpr (by omega), ?_⟩
    split
    · exact ih (by omega)
    · exact within_pure false

/-- A string needs its NUL. -/
theorem within_cStringAt_iff {off memory : Nat} (hoff : off ≤ buf.length)
    (hmemory : buf.length < off + memory) :
    (cStringAt off memory).Within beyond buf ↔ 0 ∈ buf.drop off := by
  induction memory generalizing off with
  | zero => omega
  | succ n ih =>
    rw [cStringAt, within_bind, within_readAt, run_readAt]
    by_cases hlt : off < buf.length
    · have hdrop : buf.drop off = buf[off] :: buf.drop (off + 1) := List.drop_eq_getElem_cons hlt
      have hcell : buf.getD off (beyond off) = buf[off] := by simp [hlt]
      rw [hcell, hdrop]
      generalize buf[off] = c
      by_cases hzero : c = 0
      · simp [hzero, hlt, within_pure]
      · have hne : ¬ 0 = c := fun h => hzero h.symm
        have hrest : (cStringAt (off + 1) n).Within beyond buf ↔ 0 ∈ buf.drop (off + 1) :=
          ih (by omega) (by omega)
        simp [hzero, hlt, hne, within_bind, within_pure, hrest]
    · have hdrop : buf.drop off = [] := List.drop_eq_nil_of_le (by omega)
      simp [hdrop, hlt]

end Access

end BmCore.Library
