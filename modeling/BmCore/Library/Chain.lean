import Mathlib.Data.List.Nodup
import Mathlib.Data.List.Basic

/-!
# Chains of cells in memory

A memory maps addresses to cells, and a cell points to the next one. `Chain` says which cells are
met from a pointer on, with their addresses and contents; `Backlinked` says that every one of them
points back to the one before it, `BacksUp` that it does so or points to a cell that was taken out.
Writing an address that a chain does not meet does not change the chain.
-/
namespace BmCore.Library

variable {A C : Type} {cells cells' : A → Option C} {next back : C → Option A}

/-- From `p` on the memory holds the cells of `es`, and the last one points to `q`. -/
def Chain (cells : A → Option C) (next : C → Option A) : Option A → List (A × C) → Option A → Prop
  | p, [], q => p = q
  | p, e :: es, q => p = some e.1 ∧ cells e.1 = some e.2 ∧ Chain cells next (next e.2) es q

/-- Every cell points back to the one before it, the first one to `p`. -/
def Backlinked (back : C → Option A) : Option A → List (A × C) → Prop
  | _, [] => True
  | p, e :: es => back e.2 = p ∧ Backlinked back (some e.1) es

/-- The address of the last cell, `p` for no cell. -/
def lastAddr (p : Option A) (es : List (A × C)) : Option A := es.foldl (fun _ e => some e.1) p

@[simp] theorem lastAddr_nil (p : Option A) : lastAddr p ([] : List (A × C)) = p := rfl

@[simp] theorem lastAddr_concat (p : Option A) (es : List (A × C)) (e : A × C) :
    lastAddr p (es ++ [e]) = some e.1 := by
  simp [lastAddr]

theorem lastAddr_append (p : Option A) (es fs : List (A × C)) :
    lastAddr p (es ++ fs) = lastAddr (lastAddr p es) fs := by
  simp [lastAddr]

theorem lastAddr_congr {p : Option A} {es fs : List (A × C)}
    (h : es.map Prod.fst = fs.map Prod.fst) : lastAddr p es = lastAddr p fs := by
  have hfold : ∀ gs : List (A × C),
      lastAddr p gs = (gs.map Prod.fst).foldl (fun _ a => some a) p := by
    intro gs
    rw [List.foldl_map]
    rfl
  rw [hfold, hfold, h]

theorem lastAddr_mem {p : Option A} {a : A} {es : List (A × C)} (h : lastAddr p es = some a)
    (hne : es ≠ []) : a ∈ es.map Prod.fst := by
  obtain ⟨fs, e, rfl⟩ := List.eq_nil_or_concat es |>.resolve_left hne
  rw [List.concat_eq_append, lastAddr_concat] at h
  rw [List.concat_eq_append, ← Option.some.inj h]
  simp

theorem chain_append {p q : Option A} {es fs : List (A × C)} :
    Chain cells next p (es ++ fs) q ↔
      ∃ m, Chain cells next p es m ∧ Chain cells next m fs q := by
  induction es generalizing p with
  | nil => simp [Chain]
  | cons e es ih => simp [Chain, ih, and_assoc]

theorem backlinked_append {p : Option A} {es fs : List (A × C)} :
    Backlinked back p (es ++ fs) ↔ Backlinked back p es ∧ Backlinked back (lastAddr p es) fs := by
  induction es generalizing p with
  | nil => simp [Backlinked]
  | cons e es ih => simp [Backlinked, ih, and_assoc, lastAddr]

/-- Back pointers are about the addresses and the back pointers of the cells only. -/
theorem Backlinked.congr {p : Option A} {es fs : List (A × C)} (h : Backlinked back p es)
    (haddr : fs.map Prod.fst = es.map Prod.fst)
    (hback : fs.map (fun e => back e.2) = es.map (fun e => back e.2)) : Backlinked back p fs := by
  induction es generalizing p fs with
  | nil =>
    obtain rfl : fs = [] := by simpa using haddr
    trivial
  | cons e es ih =>
    cases fs with
    | nil => simp at haddr
    | cons f fs =>
      simp only [List.map_cons, List.cons.injEq] at haddr hback
      refine ⟨hback.1.trans h.1, ?_⟩
      rw [haddr.1]
      exact ih h.2 haddr.2 hback.2

/-- Every cell points back, and to none of those that come before the one before it; only the first
one may point to nothing. The cells in `seen` come before them, the last one first. -/
def BacksUp (back : C → Option A) : List A → List (A × C) → Prop
  | _, [] => True
  | [], e :: es => BacksUp back [e.1] es
  | p :: seen, e :: es =>
    (∃ a, back e.2 = some a ∧ a ∉ seen) ∧ BacksUp back (e.1 :: p :: seen) es

theorem backsUp_append {seen : List A} {es fs : List (A × C)} :
    BacksUp back seen (es ++ fs) ↔
      BacksUp back seen es ∧ BacksUp back ((es.map Prod.fst).reverse ++ seen) fs := by
  induction es generalizing seen with
  | nil => simp [BacksUp]
  | cons e es ih => cases seen <;> simp [BacksUp, ih, and_assoc]

/-- Cells that come before are taken out. -/
theorem BacksUp.mono {seen seen' : List A} {es : List (A × C)} (h : BacksUp back seen es)
    (hsub : seen' ⊆ seen) (htail : seen'.tail ⊆ seen.tail) : BacksUp back seen' es := by
  induction es generalizing seen seen' with
  | nil => trivial
  | cons e es ih =>
    cases seen with
    | nil =>
      obtain rfl : seen' = [] := List.subset_nil.mp hsub
      exact h
    | cons p seen =>
      have hrest : BacksUp back (e.1 :: seen') es := ih h.2 (List.cons_subset_cons _ hsub) hsub
      cases seen' with
      | nil => exact hrest
      | cons p' seen' =>
        obtain ⟨a, ha, hseen⟩ := h.1
        exact ⟨⟨a, ha, fun hmem => hseen (htail hmem)⟩, hrest⟩

theorem BacksUp.congr {seen : List A} {es fs : List (A × C)} (h : BacksUp back seen es)
    (haddr : fs.map Prod.fst = es.map Prod.fst)
    (hback : fs.map (fun e => back e.2) = es.map (fun e => back e.2)) : BacksUp back seen fs := by
  induction es generalizing seen fs with
  | nil =>
    obtain rfl : fs = [] := by simpa using haddr
    trivial
  | cons e es ih =>
    cases fs with
    | nil => simp at haddr
    | cons f fs =>
      simp only [List.map_cons, List.cons.injEq] at haddr hback
      cases seen with
      | nil =>
        rw [BacksUp, haddr.1]
        exact ih h haddr.2 hback.2
      | cons p seen =>
        rw [BacksUp, haddr.1, hback.1]
        exact ⟨h.1, ih h.2 haddr.2 hback.2⟩

/-- A chain is carried over to a memory that agrees on its addresses. -/
theorem Chain.frame {p q : Option A} {es : List (A × C)} (h : Chain cells next p es q)
    (hsame : ∀ a ∈ es.map Prod.fst, cells' a = cells a) : Chain cells' next p es q := by
  induction es generalizing p with
  | nil => exact h
  | cons e es ih =>
    obtain ⟨hp, hcell, hrest⟩ := h
    refine ⟨hp, ?_, ih hrest fun a ha => hsame a (List.mem_cons_of_mem _ ha)⟩
    rw [hsame e.1 List.mem_cons_self, hcell]

theorem Chain.cell {p q : Option A} {es : List (A × C)} (h : Chain cells next p es q)
    {e : A × C} (he : e ∈ es) : cells e.1 = some e.2 := by
  induction es generalizing p with
  | nil => exact absurd he List.not_mem_nil
  | cons f es ih =>
    rcases List.mem_cons.mp he with rfl | hmem
    · exact h.2.1
    · exact ih h.2.2 hmem

/-- Every chain from a pointer to the end begins with what is met first. -/
theorem Chain.begins {p q : Option A} {es fs : List (A × C)} (h : Chain cells next p es q)
    (h' : Chain cells next p fs none) : ∃ gs, fs = es ++ gs ∧ Chain cells next q gs none := by
  induction es generalizing p fs with
  | nil =>
    obtain rfl : p = q := h
    exact ⟨fs, rfl, h'⟩
  | cons e es ih =>
    obtain ⟨rfl, hcell, hrest⟩ := h
    cases fs with
    | nil => exact absurd h' (by simp [Chain])
    | cons f fs =>
      obtain ⟨haddr, hcell', hrest'⟩ := h'
      obtain rfl : e = f := by
        refine Prod.ext (Option.some.inj haddr) (Option.some.inj ?_)
        rw [← hcell, ← hcell', Option.some.inj haddr]
      obtain ⟨gs, rfl, hgs⟩ := ih hrest hrest'
      exact ⟨gs, rfl, hgs⟩

/-- A pointer that leads to no cell leads to no end. -/
theorem Chain.astray {p : Option A} {a : A} {es fs : List (A × C)}
    (h : Chain cells next p es (some a)) (ha : cells a = none) : ¬ Chain cells next p fs none := by
  intro h'
  obtain ⟨gs, -, hgs⟩ := h.begins h'
  cases gs with
  | nil => exact absurd hgs (by simp [Chain])
  | cons g gs =>
    have hcell := hgs.2.1
    rw [← Option.some.inj hgs.1, ha] at hcell
    exact absurd hcell (by simp)

/-- What a pointer meets is determined by the memory. -/
theorem Chain.unique {p : Option A} {es fs : List (A × C)} (h : Chain cells next p es none)
    (h' : Chain cells next p fs none) : es = fs := by
  obtain ⟨gs, rfl, hgs⟩ := h.begins h'
  cases gs with
  | nil => exact (List.append_nil es).symm
  | cons g gs => exact absurd hgs.1 (by simp)

end BmCore.Library
