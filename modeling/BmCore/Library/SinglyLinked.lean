import BmCore.Library.DoublyLinked

/-!
# Singly linked lists in memory

Cells that know the one behind them only: `mk next v` is the cell with value `v` in front of
`next`. A cell is taken out by a change of the cell before it. -/
namespace BmCore.Library

variable {A V C : Type} {mk : Option A → V → C} {heap heap' : A → Option C} {p q : Option A}
  {es fs : List (A × V)} {e l : A × V}

/-- The cells of `es` are linked with each other, the last one with `q`. -/
abbrev SinglyLinked (mk : Option A → V → C) (heap : A → Option C) (es : List (A × V))
    (q : Option A) : Prop := Segment (fun _ => mk) heap none es q

/-- There is no link to the cell before the first one. -/
theorem singlyLinked_iff : Segment (fun _ => mk) heap p es q ↔ SinglyLinked mk heap es q := by
  cases es <;> exact Iff.rfl

theorem singlyLinked_append : SinglyLinked mk heap (es ++ fs) q ↔
    SinglyLinked mk heap es (headAddr fs q) ∧ SinglyLinked mk heap fs q := by
  exact segment_append.trans (and_congr_right fun _ => singlyLinked_iff)

theorem singlyLinked_cons : SinglyLinked mk heap (e :: es) q ↔
    heap e.1 = some (mk (headAddr es q) e.2) ∧ SinglyLinked mk heap es q := by
  rw [SinglyLinked, Segment, singlyLinked_iff]

namespace SinglyLinked

theorem cell (h : SinglyLinked mk heap (es ++ e :: fs) q) :
    heap e.1 = some (mk (headAddr fs q) e.2) := Segment.cell h

theorem frame (h : SinglyLinked mk heap es q) (hframe : ∀ e ∈ es, heap' e.1 = heap e.1) :
    SinglyLinked mk heap' es q := Segment.frame h hframe

/-- The first cell is taken out. -/
theorem unlink_first (h : SinglyLinked mk heap (e :: es) q)
    (hnodup : ((e :: es).map Prod.fst).Nodup) (hsame : ∀ a ≠ e.1, heap' a = heap a) :
    SinglyLinked mk heap' es q := by
  refine (singlyLinked_cons.mp h).2.frame fun f hf => hsame f.1 ?_
  intro heq
  exact (List.nodup_cons.mp hnodup).1 (heq ▸ List.mem_map_of_mem hf)

/-- A cell behind another one is taken out: the other one gets its link. -/
theorem unlink_later (h : SinglyLinked mk heap (es ++ l :: e :: fs) q)
    (hnodup : ((es ++ l :: e :: fs).map Prod.fst).Nodup)
    (hlink : heap' l.1 = some (mk (headAddr fs q) l.2))
    (hsame : ∀ a, a ≠ l.1 → a ≠ e.1 → heap' a = heap a) :
    SinglyLinked mk heap' (es ++ l :: fs) q := by
  obtain ⟨hfront, hrest⟩ := singlyLinked_append.mp h
  have hback := (singlyLinked_cons.mp (singlyLinked_cons.mp hrest).2).2
  simp only [List.map_append, List.map_cons, List.nodup_append, List.nodup_cons,
    List.mem_cons] at hnodup
  refine singlyLinked_append.mpr ⟨hfront.frame fun f hf => hsame f.1 ?_ ?_,
    singlyLinked_cons.mpr ⟨hlink, hback.frame fun f hf => hsame f.1 ?_ ?_⟩⟩
  · exact hnodup.2.2 f.1 (List.mem_map_of_mem hf) l.1 (.inl rfl)
  · exact hnodup.2.2 f.1 (List.mem_map_of_mem hf) e.1 (.inr (.inl rfl))
  · rintro heq
    exact hnodup.2.1.1 (.inr (heq ▸ List.mem_map_of_mem hf))
  · rintro heq
    exact hnodup.2.1.2.1 (heq ▸ List.mem_map_of_mem hf)

end SinglyLinked

end BmCore.Library
