import BmCore.Library.Chain
import Mathlib.Logic.Function.Basic

/-!
# Doubly linked lists in memory

A memory maps addresses to cells, and `mk prev next v` is the cell with value `v` between `prev` and
`next`. `Segment` says that a list of addresses and values is linked in both directions. The
pointers follow from the list, so a change of the list is a change of two cells. -/
namespace BmCore.Library

variable {A V C : Type} {mk : Option A → Option A → V → C} {heap heap' : A → Option C}
  {p q p' q' : Option A} {es fs : List (A × V)} {e : A × V}

/-- The address of the first cell, `q` for no cell. -/
def headAddr (es : List (A × V)) (q : Option A) : Option A :=
  match es with
  | [] => q
  | e :: _ => some e.1

@[simp] theorem headAddr_nil : headAddr ([] : List (A × V)) q = q := rfl

@[simp] theorem headAddr_cons : headAddr (e :: es) q = some e.1 := rfl

theorem headAddr_append : headAddr (es ++ fs) q = headAddr es (headAddr fs q) := by
  cases es <;> rfl

/-- The cells of `es` are linked with each other, the first one with `p` and the last one with
`q`. -/
def Segment (mk : Option A → Option A → V → C) (heap : A → Option C) :
    Option A → List (A × V) → Option A → Prop
  | _, [], _ => True
  | p, e :: es, q => heap e.1 = some (mk p (headAddr es q) e.2) ∧ Segment mk heap (some e.1) es q

theorem segment_append : Segment mk heap p (es ++ fs) q ↔
    Segment mk heap p es (headAddr fs q) ∧ Segment mk heap (lastAddr p es) fs q := by
  induction es generalizing p with
  | nil => simp [Segment]
  | cons e es ih => simp [Segment, ih, headAddr_append, lastAddr, and_assoc]

/-- Only the cells of the list matter. -/
theorem Segment.frame (h : Segment mk heap p es q) (hframe : ∀ e ∈ es, heap' e.1 = heap e.1) :
    Segment mk heap' p es q := by
  induction es generalizing p with
  | nil => trivial
  | cons e es ih =>
    obtain ⟨hcell, hrest⟩ := h
    refine ⟨?_, ih hrest fun f hf => hframe f (List.mem_cons_of_mem e hf)⟩
    rw [hframe e List.mem_cons_self, hcell]

theorem Segment.cell (h : Segment mk heap p (es ++ e :: fs) q) :
    heap e.1 = some (mk (lastAddr p es) (headAddr fs q) e.2) :=
  (segment_append.mp h).2.1

/-- A cell is linked between two parts of a list. Only the cells next to it change. -/
theorem Segment.insert {a : A} {v : V} (h : Segment mk heap p (es ++ fs) q)
    (hnew : heap' a = some (mk (lastAddr p es) (headAddr fs q) v))
    (hlast : ∀ es' e, es = es' ++ [e] → heap' e.1 = some (mk (lastAddr p es') (some a) e.2))
    (hhead : ∀ f fs', fs = f :: fs' → heap' f.1 = some (mk (some a) (headAddr fs' q) f.2))
    (hsame : ∀ e ∈ es.dropLast ++ fs.tail, heap' e.1 = heap e.1) :
    Segment mk heap' p (es ++ (a, v) :: fs) q := by
  obtain ⟨hes, hfs⟩ := segment_append.mp h
  refine segment_append.mpr ⟨?_, hnew, ?_⟩
  · rcases List.eq_nil_or_concat es with rfl | ⟨es', e, rfl⟩
    · trivial
    · simp only [List.concat_eq_append] at hes hlast hsame ⊢
      refine segment_append.mpr ⟨(segment_append.mp hes).1.frame fun f hf => ?_,
        hlast es' e rfl, trivial⟩
      exact hsame f (by simp [hf])
  · cases fs with
    | nil => trivial
    | cons f fs' =>
      refine ⟨hhead f fs' rfl, hfs.2.frame fun e he => ?_⟩
      exact hsame e (by simp [he])

section Update
variable [DecidableEq A] {a : A} {v : V}

theorem Segment.update (h : Segment mk heap p es q) (ha : a ∉ es.map Prod.fst) (c : Option C) :
    Segment mk (Function.update heap a c) p es q := by
  refine h.frame fun e he => Function.update_of_ne ?_ _ _
  rintro rfl
  exact ha (List.mem_map_of_mem he)

/-- A cell gets another value. -/
theorem Segment.setVal (h : Segment mk heap p (es ++ e :: fs) q)
    (hnodup : ((es ++ e :: fs).map Prod.fst).Nodup) :
    Segment mk (Function.update heap e.1 (some (mk (lastAddr p es) (headAddr fs q) v))) p
      (es ++ (e.1, v) :: fs) q := by
  obtain ⟨hinit, -, hrest⟩ := segment_append.mp h
  simp only [List.map_append, List.map_cons, List.nodup_append, List.nodup_cons] at hnodup
  have hbefore : e.1 ∉ es.map Prod.fst := fun hmem => hnodup.2.2 _ hmem _ (by simp) rfl
  exact segment_append.mpr ⟨hinit.update hbefore _, Function.update_self ..,
    hrest.update hnodup.2.1.1 _⟩

/-- The last cell is taken out. -/
theorem Segment.dropLast {e' : A × V} (h : Segment mk heap p (es ++ [e', e]) q)
    (hnodup : ((es ++ [e', e]).map Prod.fst).Nodup) :
    Segment mk (Function.update heap e'.1 (some (mk (lastAddr p es) q' e'.2))) p
    (es ++ [e']) q' := by
  obtain ⟨hinit, -⟩ := segment_append.mp h
  simp only [List.map_append, List.map_cons, List.nodup_append] at hnodup
  have hbefore : e'.1 ∉ es.map Prod.fst := fun hmem => hnodup.2.2 _ hmem _ (by simp) rfl
  exact segment_append.mpr ⟨hinit.update hbefore _, Function.update_self .., trivial⟩

end Update

end BmCore.Library
