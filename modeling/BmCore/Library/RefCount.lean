import Mathlib.Data.List.Count
import Mathlib.Data.List.Perm.Basic
import Mathlib.Logic.Function.Basic

/-!
# Reference counting

Cells that are allocated with one reference. A reference may be added and taken away; the cell is
freed when the last one goes. Each access to a cell that has been freed is recorded. `Balanced` says
that the counts are those of a list of holders: as long as every access is by a holder, each cell is
freed once, when nobody holds it any more.
-/
namespace BmCore.Library

structure Cells where
  /-- The number of cells that have been allocated. -/
  count : Nat
  ref : Nat → Int
  /-- How often a cell has been freed. -/
  freed : Nat → Nat
  /-- The cells that were used behind their end, in the order of the accesses. -/
  misused : List Nat

namespace Cells

def empty : Cells := ⟨0, fun _ => 0, fun _ => 0, []⟩

/-- A new cell; its index is the old `count`. -/
def alloc (c : Cells) : Cells :=
  { c with count := c.count + 1, ref := Function.update c.ref c.count 1 }

/-- A cell is read or written. -/
def touch (c : Cells) (b : Nat) : Cells :=
  if c.freed b = 0 then c else { c with misused := c.misused ++ [b] }

def retain (c : Cells) (b : Nat) : Cells :=
  { c.touch b with ref := Function.update c.ref b (c.ref b + 1) }

def release (c : Cells) (b : Nat) : Cells :=
  let c := c.touch b
  let ref := c.ref b - 1
  { c with
    ref := Function.update c.ref b ref
    freed := if ref = 0 then Function.update c.freed b (c.freed b + 1) else c.freed }

end Cells

/-- Every cell has as many references as holders. -/
structure Balanced (c : Cells) (holders : List Nat) : Prop where
  lt : ∀ b ∈ holders, b < c.count
  ref : ∀ b < c.count, c.ref b = holders.count b
  freed : ∀ b < c.count, c.freed b = if b ∈ holders then 0 else 1
  unused : ∀ b, c.count ≤ b → c.freed b = 0
  misused : c.misused = []

namespace Balanced
variable {c : Cells} {holders holders' : List Nat} {b : Nat}

theorem empty : Balanced .empty [] := by
  constructor <;> simp [Cells.empty]

theorem perm (h : Balanced c holders) (hperm : holders.Perm holders') : Balanced c holders' := by
  obtain ⟨hlt, href, hfreed, hunused, hmisused⟩ := h
  refine ⟨fun b hb => hlt b (hperm.mem_iff.mpr hb), fun b hb => ?_, fun b hb => ?_, hunused,
    hmisused⟩
  · rw [href b hb, hperm.count_eq]
  · rw [hfreed b hb]
    simp only [hperm.mem_iff]

theorem alloc (h : Balanced c holders) : Balanced c.alloc (c.count :: holders) := by
  obtain ⟨hlt, href, hfreed, hunused, hmisused⟩ := h
  have hnew : c.count ∉ holders := fun hmem => Nat.lt_irrefl _ (hlt _ hmem)
  refine ⟨fun b hb => ?_, fun b hb => ?_, fun b hb => ?_, fun b hb => ?_, hmisused⟩
  · rcases List.mem_cons.mp hb with rfl | hb
    · exact Nat.lt_succ_self _
    · exact Nat.lt_succ_of_lt (hlt b hb)
  · rcases Nat.lt_succ_iff_lt_or_eq.mp hb with hb | rfl
    · have hne : b ≠ c.count := Nat.ne_of_lt hb
      simp [Cells.alloc, hne, Ne.symm hne, href b hb]
    · simp [Cells.alloc, List.count_eq_zero.mpr hnew]
  · rcases Nat.lt_succ_iff_lt_or_eq.mp hb with hb | rfl
    · have hne : b ≠ c.count := Nat.ne_of_lt hb
      simp [Cells.alloc, hne, hfreed b hb]
    · simp [Cells.alloc, hunused c.count (Nat.le_refl _)]
  · exact hunused b (Nat.le_of_succ_le hb)

/-- A holder may use its cell. -/
theorem touch (h : Balanced c holders) (hb : b ∈ holders) : c.touch b = c := by
  have hfreed := h.freed b (h.lt b hb)
  rw [if_pos hb] at hfreed
  simp [Cells.touch, hfreed]

theorem retain (h : Balanced c holders) (hb : b ∈ holders) :
    Balanced (c.retain b) (b :: holders) := by
  have htouch := h.touch hb
  obtain ⟨hlt, href, hfreed, hunused, hmisused⟩ := h
  rw [Cells.retain, htouch]
  refine ⟨fun b' hb' => ?_, fun b' hb' => ?_, fun b' hb' => ?_, hunused, hmisused⟩
  · rcases List.mem_cons.mp hb' with rfl | hb'
    · exact hlt b' hb
    · exact hlt b' hb'
  · rcases eq_or_ne b' b with rfl | hne
    · simp [href b' hb']
    · simp [hne, Ne.symm hne, href b' hb']
  · rcases eq_or_ne b' b with rfl | hne
    · simp [hfreed b' hb', hb]
    · simp [hne, hfreed b' hb']

theorem release (h : Balanced c holders) (hb : b ∈ holders) :
    Balanced (c.release b) (holders.erase b) := by
  have htouch := h.touch hb
  obtain ⟨hlt, href, hfreed, hunused, hmisused⟩ := h
  have hrefb := href b (hlt b hb)
  have hfreedb := hfreed b (hlt b hb)
  have hpos : 0 < holders.count b := List.count_pos_iff.mpr hb
  have hzero : c.ref b - 1 = 0 ↔ b ∉ holders.erase b := by
    rw [← List.count_eq_zero, List.count_erase_self, hrefb]
    omega
  rw [Cells.release, htouch]
  refine ⟨fun b' hb' => hlt b' (List.mem_of_mem_erase hb'), fun b' hb' => ?_, fun b' hb' => ?_,
    fun b' hb' => ?_, hmisused⟩
  · rcases eq_or_ne b' b with rfl | hne
    · simp [List.count_erase_self, hrefb]
      omega
    · simp [hne, List.count_erase_of_ne hne, href b' hb']
  · rcases eq_or_ne b' b with rfl | hne
    · simp only [hzero]
      split <;> simp_all
    · have hmem : b' ∈ holders.erase b ↔ b' ∈ holders := List.mem_erase_of_ne hne
      dsimp only
      split <;> simp [hne, hmem, hfreed b' hb']
  · have hne : b' ≠ b := by
      rintro rfl
      exact absurd (hlt b' hb) (Nat.not_lt.mpr hb')
    dsimp only
    split <;> simp [hne, hunused b' hb']

end Balanced

end BmCore.Library
