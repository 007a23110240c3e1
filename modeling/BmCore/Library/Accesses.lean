import Mathlib.Data.List.Basic

/-!
# Accesses to a buffer

A computation that reads and writes single cells of a buffer, as a tree of its accesses: what it
does next may depend on what it has read. Behind the end of the buffer a read sees whatever lies
there, and a write goes astray. A computation that stays within the buffer does not depend on what
lies behind it. -/
namespace BmCore.Library

inductive Access (C α : Type) where
  | done (a : α)
  | read (off : Nat) (next : C → Access C α)
  | write (off : Nat) (c : C) (next : Access C α)

namespace Access
variable {C α β : Type}

def bind : Access C α → (α → Access C β) → Access C β
  | .done a, f => f a
  | .read off next, f => .read off fun c => (next c).bind f
  | .write off c next, f => .write off c (next.bind f)

instance : Monad (Access C) where
  pure := .done
  bind := bind

def readAt (off : Nat) : Access C C := .read off .done

def writeAt (off : Nat) (c : C) : Access C Unit := .write off c (.done ())

/-- The result and the buffer that is left. -/
def run (beyond : Nat → C) : Access C α → List C → α × List C
  | .done a, buf => (a, buf)
  | .read off next, buf => (next (buf.getD off (beyond off))).run beyond buf
  | .write off c next, buf => next.run beyond (buf.set off c)

/-- The offsets that are accessed, in their order. -/
def offsets (beyond : Nat → C) : Access C α → List C → List Nat
  | .done _, _ => []
  | .read off next, buf => off :: (next (buf.getD off (beyond off))).offsets beyond buf
  | .write off c next, buf => off :: next.offsets beyond (buf.set off c)

/-- Every access is to a cell of the buffer. -/
def Within (beyond : Nat → C) (m : Access C α) (buf : List C) : Prop :=
  ∀ off ∈ m.offsets beyond buf, off < buf.length

instance (beyond : Nat → C) (m : Access C α) (buf : List C) : Decidable (m.Within beyond buf) :=
  inferInstanceAs (Decidable (∀ off ∈ m.offsets beyond buf, off < buf.length))

section Rules
variable {beyond : Nat → C} {buf : List C}

@[simp] theorem run_pure (a : α) : (pure a : Access C α).run beyond buf = (a, buf) := rfl

@[simp] theorem offsets_pure (a : α) : (pure a : Access C α).offsets beyond buf = [] := rfl

@[simp] theorem run_readAt (off : Nat) :
    (readAt off).run beyond buf = (buf.getD off (beyond off), buf) := rfl

@[simp] theorem offsets_readAt (off : Nat) : (readAt off).offsets beyond buf = [off] := rfl

@[simp] theorem run_writeAt (off : Nat) (c : C) :
    (writeAt off c).run beyond buf = ((), buf.set off c) := rfl

@[simp] theorem offsets_writeAt (off : Nat) (c : C) :
    (writeAt off c).offsets beyond buf = [off] := rfl

@[simp] theorem run_bind (m : Access C α) (f : α → Access C β) (buf : List C) :
    (m >>= f).run beyond buf = (f (m.run beyond buf).1).run beyond (m.run beyond buf).2 := by
  change (m.bind f).run beyond buf = _
  induction m generalizing buf with
  | done a => rfl
  | read off next ih => exact ih _ buf
  | write off c next ih => exact ih _

@[simp] theorem offsets_bind (m : Access C α) (f : α → Access C β) (buf : List C) :
    (m >>= f).offsets beyond buf =
      m.offsets beyond buf ++ (f (m.run beyond buf).1).offsets beyond (m.run beyond buf).2 := by
  change (m.bind f).offsets beyond buf = _
  induction m generalizing buf with
  | done a => rfl
  | read off next ih => exact congrArg (off :: ·) (ih _ buf)
  | write off c next ih => exact congrArg (off :: ·) (ih _)

theorem run_ite (p : Prop) [Decidable p] (m m' : Access C α) :
    (if p then m else m').run beyond buf = if p then m.run beyond buf else m'.run beyond buf := by
  split <;> rfl

/-- The buffer keeps its size. -/
@[simp] theorem length_run (m : Access C α) (buf : List C) :
    (m.run beyond buf).2.length = buf.length := by
  induction m generalizing buf with
  | done a => rfl
  | read off next ih => exact ih _ buf
  | write off c next ih => exact (ih _).trans (List.length_set ..)

theorem within_bind {m : Access C α} {f : α → Access C β} : (m >>= f).Within beyond buf ↔
    m.Within beyond buf ∧ (f (m.run beyond buf).1).Within beyond (m.run beyond buf).2 := by
  unfold Within
  rw [offsets_bind, List.forall_mem_append, length_run]

theorem within_pure (a : α) : (pure a : Access C α).Within beyond buf := by
  simp [Within]

theorem within_ite (p : Prop) [Decidable p] (m m' : Access C α) :
    (if p then m else m').Within beyond buf ↔
      (p → m.Within beyond buf) ∧ (¬ p → m'.Within beyond buf) := by
  split <;> simp_all

theorem within_readAt {off : Nat} : (readAt off).Within beyond buf ↔ off < buf.length := by
  simp [Within]

theorem within_writeAt {off : Nat} {c : C} : (writeAt off c).Within beyond buf ↔
    off < buf.length := by
  simp [Within]

/-- Every access is to one of the first `n` cells. -/
def Below (beyond : Nat → C) (m : Access C α) (buf : List C) (n : Nat) : Prop :=
  ∀ off ∈ m.offsets beyond buf, off < n

theorem Below.bind {m : Access C α} {f : α → Access C β} {n : Nat} (h : m.Below beyond buf n)
    (hnext : ∀ a buf, (f a).Below beyond buf n) : (m >>= f).Below beyond buf n := by
  intro off hoff
  rw [offsets_bind] at hoff
  rcases List.mem_append.mp hoff with hm | hf
  · exact h off hm
  · exact hnext _ _ off hf

theorem below_pure (a : α) (n : Nat) : (pure a : Access C α).Below beyond buf n := by
  simp [Below]

theorem below_readAt {off n : Nat} : (readAt off).Below beyond buf n ↔ off < n := by
  simp [Below]

theorem below_writeAt {off n : Nat} {c : C} : (writeAt off c).Below beyond buf n ↔ off < n := by
  simp [Below]

/-- What lies behind the buffer plays no part in a computation within it. -/
theorem Within.run_eq {m : Access C α} (h : m.Within beyond buf) (beyond' : Nat → C) :
    m.run beyond' buf = m.run beyond buf := by
  induction m generalizing buf with
  | done a => rfl
  | read off next ih =>
    have hoff : off < buf.length := h off List.mem_cons_self
    have hcell : ∀ c, buf.getD off c = buf[off] := fun c => by simp [hoff]
    have hnext := fun i hi => h i (List.mem_cons_of_mem off hi)
    simp only [run, hcell] at hnext ⊢
    exact ih _ hnext
  | write off c next ih =>
    refine ih fun i hi => ?_
    rw [List.length_set]
    exact h i (List.mem_cons_of_mem off hi)

/-- Nor for where it accesses the buffer. -/
theorem Within.offsets_eq {m : Access C α} (h : m.Within beyond buf) (beyond' : Nat → C) :
    m.offsets beyond' buf = m.offsets beyond buf := by
  induction m generalizing buf with
  | done a => rfl
  | read off next ih =>
    have hoff : off < buf.length := h off List.mem_cons_self
    have hcell : ∀ c, buf.getD off c = buf[off] := fun c => by simp [hoff]
    have hnext := fun i hi => h i (List.mem_cons_of_mem off hi)
    simp only [offsets, hcell] at hnext ⊢
    rw [ih _ hnext]
  | write off c next ih =>
    refine congrArg (off :: ·) (ih fun i hi => ?_)
    rw [List.length_set]
    exact h i (List.mem_cons_of_mem off hi)

end Rules

/-! ## Consecutive cells -/

def readRange (off : Nat) : Nat → Access C (List C)
  | 0 => pure []
  | n + 1 => do
    let c ← readAt off
    let cs ← readRange (off + 1) n
    return c :: cs

def writeRange (off : Nat) : List C → Access C Unit
  | [] => pure ()
  | c :: cs => do
    writeAt off c
    writeRange (off + 1) cs

section Ranges
variable {beyond : Nat → C}

@[simp] theorem run_readRange (off n : Nat) (buf : List C) : (readRange off n).run beyond buf =
    ((List.range n).map fun i => buf.getD (off + i) (beyond (off + i)), buf) := by
  induction n generalizing off with
  | zero => rfl
  | succ n ih =>
    simp only [readRange, run_bind, run_readAt, run_pure, ih, List.range_succ_eq_map, List.map_cons,
      List.map_map, Nat.add_zero]
    refine congrArg (·, buf) (congrArg (_ :: ·) (List.map_congr_left fun i _ => ?_))
    rw [Function.comp_apply, Nat.succ_eq_add_one, Nat.add_right_comm, Nat.add_assoc]

theorem within_readRange_iff {off n : Nat} {buf : List C} :
    (readRange off n).Within beyond buf ↔ n = 0 ∨ off + n ≤ buf.length := by
  induction n generalizing off with
  | zero => simp [readRange, within_pure]
  | succ n ih =>
    rw [readRange, within_bind, within_readAt, run_readAt, within_bind, ih]
    simp only [within_pure, and_true]
    omega

theorem below_readRange {off n k : Nat} {buf : List C} (h : off + n ≤ k) :
    (readRange off n).Below beyond buf k := by
  induction n generalizing off buf with
  | zero => exact below_pure _ _
  | succ n ih =>
    have hhead : (readAt off : Access C C).Below beyond buf k := below_readAt.mpr (by omega)
    exact hhead.bind fun _ buf => (ih (by omega)).bind fun _ _ => below_pure _ _

theorem within_readRange {off n : Nat} {buf : List C} (h : off + n ≤ buf.length) :
    (readRange off n).Within beyond buf := within_readRange_iff.mpr (.inr h)

theorem run_writeRange {off : Nat} {cs buf : List C} (h : off + cs.length ≤ buf.length) :
    (writeRange off cs).run beyond buf = ((),
      buf.take off ++ cs ++ buf.drop (off + cs.length)) := by
  induction cs generalizing off buf with
  | nil => simp [writeRange]
  | cons c cs ih =>
    rw [List.length_cons] at h
    have htake : (buf.set off c).take (off + 1) = buf.take off ++ [c] := by
      rw [List.set_eq_take_append_cons_drop, if_pos (by omega), List.take_append, List.length_take,
        Nat.min_eq_left (by omega), Nat.add_sub_cancel_left, List.take_take,
        Nat.min_eq_right (by omega)]
      rfl
    have hdrop : (buf.set off c).drop (off + 1 + cs.length) = buf.drop (off + (cs.length + 1)) := by
      rw [List.drop_set, if_pos (by omega), Nat.add_right_comm, Nat.add_assoc]
    simp only [writeRange, run_bind, run_writeAt]
    rw [ih (by rw [List.length_set]; omega), htake, hdrop, List.length_cons]
    simp

/-- A cell behind a write of any length: what does not fit goes astray. -/
theorem getElem?_run_writeRange (off : Nat) (cs buf : List C) {i : Nat} (hi : i < buf.length) :
    ((writeRange off cs).run beyond buf).2[i]? =
      if off ≤ i ∧ i < off + cs.length then cs[i - off]? else buf[i]? := by
  induction cs generalizing off buf with
  | nil => grind [writeRange, run_pure]
  | cons c cs ih =>
    rw [writeRange, run_bind, run_writeAt, ih (off + 1) (buf.set off c) (by simpa using hi),
      List.getElem?_set]
    by_cases hoff : off = i
    · subst hoff
      have hnot : ¬ (off + 1 ≤ off ∧ off < off + 1 + cs.length) := by omega
      rw [if_neg hnot]
      simp [hi]
    · rw [if_neg hoff, List.length_cons]
      by_cases hle : off + 1 ≤ i
      · have hsub : i - off = i - (off + 1) + 1 := by omega
        grind
      · grind

theorem within_writeRange {off : Nat} {cs buf : List C} (h : off + cs.length ≤ buf.length) :
    (writeRange off cs).Within beyond buf := by
  induction cs generalizing off buf with
  | nil => exact within_pure ()
  | cons c cs ih =>
    rw [List.length_cons] at h
    refine within_bind.mpr ⟨within_writeAt.mpr (by omega), ih ?_⟩
    rw [run_writeAt, List.length_set]
    omega

/-- The cells in front of a range stay as they are. -/
theorem take_run_writeRange {off k : Nat} {cs buf : List C} (h : k ≤ off) :
    ((writeRange off cs).run beyond buf).2.take k = buf.take k := by
  induction cs generalizing off buf with
  | nil => rfl
  | cons c cs ih => rw [writeRange, run_bind, run_writeAt, ih (by omega), List.take_set_of_le h]

theorem below_writeRange {off k : Nat} {cs buf : List C} (h : off + cs.length ≤ k) :
    (writeRange off cs).Below beyond buf k := by
  induction cs generalizing off buf with
  | nil => exact below_pure _ _
  | cons c cs ih =>
    rw [List.length_cons] at h
    have hhead : (writeAt off c).Below beyond buf k := below_writeAt.mpr (by omega)
    exact hhead.bind fun _ _ => ih (by omega)

end Ranges

/-! ## Readers and writers

What a reader yields and what a writer puts into a buffer, with their accesses in bounds. Both are
put together along the program. -/

/-- A computation within the buffer that leaves it alone. -/
structure Yields (beyond : Nat → C) (buf : List C) (m : Access C α) (a : α) : Prop where
  within : m.Within beyond buf
  run_eq : m.run beyond buf = (a, buf)

/-- A computation that stores consecutive cells, if the buffer has them. -/
def Puts (beyond : Nat → C) (off : Nat) (cs : List C) (m : Access C α) (a : α) : Prop :=
  ∀ buf, off + cs.length ≤ buf.length → m.Within beyond buf ∧
    m.run beyond buf = (a, buf.take off ++ cs ++ buf.drop (off + cs.length))

section ReadersWriters
variable {beyond : Nat → C} {buf : List C}

theorem yields_pure (a : α) : Yields beyond buf (pure a) a := ⟨within_pure a, rfl⟩

theorem Yields.bind {m : Access C α} {f : α → Access C β} {a : α} {b : β}
    (h : Yields beyond buf m a) (hnext : Yields beyond buf (f a) b) :
    Yields beyond buf (m >>= f) b := by
  refine ⟨within_bind.mpr ⟨h.within, ?_⟩, ?_⟩
  · rw [h.run_eq]
    exact hnext.within
  · rw [run_bind, h.run_eq]
    exact hnext.run_eq

theorem yields_readAt {off : Nat} {c : C} (h : buf[off]? = some c) :
    Yields beyond buf (readAt off) c := by
  obtain ⟨hlt, hcell⟩ := List.getElem?_eq_some_iff.mp h
  exact ⟨within_readAt.mpr hlt, by simp [hlt, hcell]⟩

theorem yields_readRange (pre cs post : List C) :
    Yields beyond (pre ++ cs ++ post) (readRange pre.length cs.length) cs := by
  refine ⟨within_readRange (by simp), ?_⟩
  rw [run_readRange]
  refine Prod.ext (List.ext_getElem (by simp) fun i hi hi' => ?_) rfl
  have hbehind : ¬ pre.length + i < pre.length := by omega
  simp [List.getElem?_append, hi', if_neg hbehind]

theorem puts_writeRange (off : Nat) (cs : List C) : Puts beyond off cs (writeRange off cs) () :=
  fun _ h => ⟨within_writeRange h, run_writeRange h⟩

theorem puts_writeAt (off : Nat) (c : C) : Puts beyond off [c] (writeAt off c) () :=
  puts_writeRange off [c]

theorem puts_pure (off : Nat) (a : α) : Puts beyond off [] (pure a : Access C α) a :=
  fun buf _ => ⟨within_pure a, by simp⟩

/-- What is put directly behind goes on with it. -/
theorem Puts.bind {off : Nat} {cs ds : List C} {m : Access C α} {f : α → Access C β} {a : α} {b : β}
    (h : Puts beyond off cs m a) (hnext : Puts beyond (off + cs.length) ds (f a) b) :
    Puts beyond off (cs ++ ds) (m >>= f) b := by
  intro buf hroom
  rw [List.length_append] at hroom
  obtain ⟨hwithin, hrun⟩ := h buf (by omega)
  obtain ⟨hwithin', hrun'⟩ := hnext (buf.take off ++ cs ++ buf.drop (off + cs.length)) (by
    simp only [List.length_append, List.length_take, List.length_drop]
    omega)
  have htake : (buf.take off ++ cs ++ buf.drop (off + cs.length)).take (off + cs.length) =
      buf.take off ++ cs := List.take_left' (by simp; omega)
  have hdrop : (buf.take off ++ cs ++ buf.drop (off + cs.length)).drop
      (off + cs.length + ds.length) = buf.drop (off + (cs ++ ds).length) := by
    rw [← List.drop_drop, List.drop_left' (by simp; omega), List.drop_drop, List.length_append,
      Nat.add_assoc]
  refine ⟨within_bind.mpr ⟨hwithin, by rwa [hrun]⟩, ?_⟩
  rw [run_bind, hrun, hrun', htake, hdrop]
  simp

end ReadersWriters

end Access

end BmCore.Library
