import Mathlib.Combinatorics.SimpleGraph.Acyclic
import Mathlib.Combinatorics.SimpleGraph.Metric
import Mathlib.Algebra.BigOperators.Group.Finset.Basic

/-!
# Trees seen from a vertex

In a tree every vertex but the root has one neighbor that is nearer to the root, and all its other
neighbors are its children. What is below a vertex is the vertex itself and, once each, what is
below its children.
-/
namespace BmCore.Library
open SimpleGraph

variable {V : Type} {G : SimpleGraph V} {o v w x a b : V}

/-- `w` is next to `v`, on the side away from the root `o`. -/
def Child (G : SimpleGraph V) (o v w : V) : Prop := G.Adj v w ∧ G.dist o w = G.dist o v + 1

/-- `x` is `v` or is reached from it away from the root. -/
def Below (G : SimpleGraph V) (o v x : V) : Prop := Relation.ReflTransGen (Child G o) v x

theorem child_or_child (hG : G.IsTree) (o : V) (h : G.Adj v w) : Child G o v w ∨ Child G o w v := by
  rcases hG.dist_eq_dist_add_one_of_adj o h with hw | hv
  · exact .inr ⟨h.symm, hw⟩
  · exact .inl ⟨h, hv⟩

theorem Child.not_symm (h : Child G o v w) : ¬ Child G o w v := by
  intro h'
  have hvw := h.2
  have hwv := h'.2
  omega

theorem not_child_root : ¬ Child G o v o := by
  intro h
  have hdist := h.2
  rw [dist_self] at hdist
  omega

/-- A vertex has one parent. -/
theorem Child.unique (hG : G.IsTree) (hv : Child G o v w) (ha : Child G o a w) : v = a := by
  have hpath : ∀ {u : V} (h : Child G o u w), ∃ p : G.Walk o w, p.IsPath ∧ p.penultimate = u := by
    intro u h
    obtain ⟨p, hp⟩ := hG.connected.exists_walk_length_eq_dist o u
    refine ⟨p.concat h.1, Walk.isPath_of_length_eq_dist _ ?_, Walk.penultimate_concat _ _⟩
    rw [Walk.length_concat, hp, h.2]
  obtain ⟨p, hp, rfl⟩ := hpath hv
  obtain ⟨q, hq, rfl⟩ := hpath ha
  have heq := (hG.isAcyclic.subsingleton_path o w).elim ⟨p, hp⟩ ⟨q, hq⟩
  rw [Subtype.mk.injEq] at heq
  rw [heq]

/-- Every vertex but the root has a parent. -/
theorem exists_parent (hG : G.IsTree) (h : w ≠ o) : ∃ v, Child G o v w := by
  obtain ⟨p, hp⟩ := hG.connected.exists_walk_length_eq_dist o w
  cases hrev : p.reverse with
  | nil => exact absurd rfl h
  | @cons _ v _ hadj q =>
    have hlen : p.length = q.length + 1 := by
      rw [← Walk.length_reverse, hrev, Walk.length_cons]
    have hle : G.dist o v ≤ q.length := by
      rw [dist_comm]
      exact dist_le q
    rcases child_or_child hG o hadj with hchild | hchild
    · have hdist := hchild.2
      omega
    · exact ⟨v, hchild⟩

theorem Below.dist_le (h : Below G o v x) : G.dist o v ≤ G.dist o x := by
  induction h with
  | refl => exact Nat.le_refl _
  | tail _ hchild ih => exact ih.trans (by rw [hchild.2]; exact Nat.le_succ _)

theorem below_root (hG : G.IsTree) (x : V) : Below G o o x := by
  generalize hn : G.dist o x = n
  induction n generalizing x with
  | zero =>
    obtain rfl := (hG.connected.dist_eq_zero_iff).mp hn
    exact .refl
  | succ n ih =>
    have hne : x ≠ o := by
      rintro rfl
      simp at hn
    obtain ⟨v, hchild⟩ := exists_parent hG hne
    have hv := hchild.2
    exact .tail (ih v (by omega)) hchild

/-- Two vertices of one level with something below them both are the same. -/
theorem Below.unique (hG : G.IsTree) (ha : Below G o a x) (hb : Below G o b x)
    (hlevel : G.dist o a = G.dist o b) : a = b := by
  induction ha with
  | refl =>
    rcases hb.cases_tail with rfl | ⟨c, hbc, hchild⟩
    · rfl
    · have hle := Below.dist_le hbc
      have hdist := hchild.2
      omega
  | tail hac hchild ih =>
    rcases hb.cases_tail with rfl | ⟨c, hbc, hchild'⟩
    · have hle := Below.dist_le hac
      have hdist := hchild.2
      omega
    · obtain rfl := hchild.unique hG hchild'
      exact ih hbc

theorem below_iff : Below G o v x ↔ x = v ∨ ∃ c, Child G o v c ∧ Below G o c x := by
  unfold Below
  rw [Relation.ReflTransGen.cases_head_iff]
  constructor <;> rintro (rfl | h)
  · exact .inl rfl
  · exact .inr h
  · exact .inl rfl
  · exact .inr h

/-! ## Counting -/

open Classical in
/-- 1 for what is below a vertex. -/
noncomputable def reach (G : SimpleGraph V) (o v x : V) : Nat := if Below G o v x then 1 else 0

open Classical in
/-- 1 for what is strictly below a vertex. -/
noncomputable def beyond (G : SimpleGraph V) (o v x : V) : Nat :=
  if Below G o v x ∧ x ≠ v then 1 else 0

open Classical in
theorem reach_eq (v x : V) : reach G o v x = (if x = v then 1 else 0) + beyond G o v x := by
  unfold reach beyond
  by_cases hx : x = v
  · subst hx
    simp [Below, Relation.ReflTransGen.refl]
  · simp [hx]

theorem sum_reach_eq [Fintype V] (G : SimpleGraph V) (o v : V) :
    ∑ x, reach G o v x = 1 + ∑ x, beyond G o v x := by
  classical
  simp only [reach_eq, Finset.sum_add_distrib, Finset.sum_ite_eq', Finset.mem_univ, if_true]

theorem beyond_root [DecidableEq V] (hG : G.IsTree) (x : V) :
    beyond G o o x = if x = o then 0 else 1 := by
  simp [beyond, below_root hG x]

theorem card_eq_beyond [Fintype V] (hG : G.IsTree) (o : V) :
    Fintype.card V = 1 + ∑ x, beyond G o o x := by
  rw [← sum_reach_eq, ← Finset.card_univ, Finset.card_eq_sum_ones]
  exact Finset.sum_congr rfl fun x _ => by simp [reach, below_root hG x]

/-- What is strictly below a vertex is below one of its children. -/
theorem sum_reach_children (hG : G.IsTree) {children : List V} (hnodup : children.Nodup)
    (hchildren : ∀ c, c ∈ children ↔ Child G o v c) (x : V) :
    (children.map (reach G o · x)).sum = beyond G o v x := by
  classical
  have hone : ∀ {u}, Below G o u x → reach G o u x = 1 := fun h => if_pos h
  have hzero : ∀ {u}, ¬ Below G o u x → reach G o u x = 0 := fun h => if_neg h
  have hstrict : ∀ c, Child G o v c → Below G o c x → Below G o v x ∧ x ≠ v := by
    intro c hchild hbelow
    refine ⟨below_iff.mpr (.inr ⟨c, hchild, hbelow⟩), ?_⟩
    rintro rfl
    have hle := hbelow.dist_le
    have hdist := hchild.2
    omega
  rw [← List.sum_toFinset _ hnodup]
  by_cases hx : Below G o v x ∧ x ≠ v
  · obtain ⟨c, hchild, hbelow⟩ := (below_iff.mp hx.1).resolve_left hx.2
    rw [Finset.sum_eq_single c, hone hbelow, beyond, if_pos hx]
    · intro d hd hne
      have hchild' := (hchildren d).mp (List.mem_toFinset.mp hd)
      refine hzero fun hbelow' => hne ?_
      exact Below.unique hG hbelow' hbelow (by rw [hchild.2, hchild'.2])
    · intro hc
      exact absurd (List.mem_toFinset.mpr ((hchildren c).mpr hchild)) hc
  · rw [beyond, if_neg hx]
    refine Finset.sum_eq_zero fun c hc => hzero fun hbelow => hx ?_
    exact hstrict c ((hchildren c).mp (List.mem_toFinset.mp hc)) hbelow

end BmCore.Library
