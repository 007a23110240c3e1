import BmCore.Library.Runs
import Mathlib.Algebra.BigOperators.Group.Finset.Basic
import Mathlib.Algebra.BigOperators.Group.List.Basic
import Mathlib.Algebra.GroupWithZero.Nat
import Mathlib.Data.List.Perm.Basic
import Mathlib.Data.List.Count

/-!
# Worklists

A machine with a list of pending events. A step takes one of them, in any order, which leads to
further events and to output. What every event owes is conserved, as long as an event hands on what
it does not put out itself, and a run ends when every event costs more than what it leads to.
-/
namespace BmCore.Library

/-- Pending events, and the output so far. -/
structure Worklist (E O : Type) where
  pending : List E
  done : List O

namespace Worklist
variable {E O : Type} (process : E → List E × List O)

/-- The event with index `k` is taken. -/
def step (s : Worklist E O) (k : Nat) : Worklist E O :=
  match s.pending[k]? with
  | none => s
  | some e => ⟨s.pending.eraseIdx k ++ (process e).1, s.done ++ (process e).2⟩

/-- The runs that take a good event in every step. -/
def RunsWhere (good : E → Prop) (s : Worklist E O) (ks : List Nat) : Prop :=
  Along (step process) (fun s k => ∃ e ∈ s.pending[k]?, good e) s ks

instance (good : E → Prop) [DecidablePred good] (s : Worklist E O) (ks : List Nat) :
    Decidable (s.RunsWhere process good ks) := inferInstanceAs (Decidable (Along _ _ _ _))

/-- The runs that take an event in every step. -/
def Runs (s : Worklist E O) (ks : List Nat) : Prop := s.RunsWhere process (fun _ => True) ks

instance (s : Worklist E O) (ks : List Nat) : Decidable (s.Runs process ks) :=
  inferInstanceAs (Decidable (RunsWhere _ _ _ _))

/-- What is pending and done adds up. -/
def total (due : E → Nat) (out : O → Nat) (s : Worklist E O) : Nat :=
  (s.pending.map due).sum + (s.done.map out).sum

variable {process}

theorem step_eq {s : Worklist E O} {k : Nat} {e : E} (h : s.pending[k]? = some e) :
    s.step process k = ⟨s.pending.eraseIdx k ++ (process e).1, s.done ++ (process e).2⟩ := by
  rw [step, h]

theorem sum_eraseIdx {l : List E} {k : Nat} {e : E} (h : l[k]? = some e) (f : E → Nat) :
    (l.map f).sum = f e + ((l.eraseIdx k).map f).sum := by
  obtain ⟨hk, rfl⟩ := List.getElem?_eq_some_iff.mp h
  have hperm := (List.getElem_cons_eraseIdx_perm hk).map f
  rw [← hperm.sum_eq, List.map_cons, List.sum_cons]

theorem sum_map_sum {A X : Type} [Fintype X] (l : List A) (f : A → X → Nat) :
    (l.map fun a => ∑ x, f a x).sum = ∑ x, (l.map fun a => f a x).sum := by
  induction l with
  | nil => simp
  | cons a l ih => simp [ih, Finset.sum_add_distrib]

theorem count_eq_sum {A : Type} [BEq A] [LawfulBEq A] [DecidableEq A] (l : List A) (a : A) :
    l.count a = (l.map fun b => if a = b then 1 else 0).sum := by
  induction l with
  | nil => rfl
  | cons b l ih =>
    rw [List.count_cons, List.map_cons, List.sum_cons, ih]
    simp only [beq_iff_eq, eq_comm (a := a)]
    omega

section Step
variable {s : Worklist E O} {k : Nat} {e : E} (hk : s.pending[k]? = some e)
include hk

/-- What holds of every event and is handed on holds of every pending event, and what their output
satisfies holds of all output. -/
theorem step_all {okE : E → Prop} {okO : O → Prop}
    (he : (∀ e' ∈ (process e).1, okE e') ∧ ∀ o ∈ (process e).2, okO o)
    (h : (∀ e ∈ s.pending, okE e) ∧ ∀ o ∈ s.done, okO o) :
    (∀ e ∈ (s.step process k).pending, okE e) ∧ ∀ o ∈ (s.step process k).done, okO o := by
  rw [step_eq hk]
  refine ⟨fun e' he' => ?_, fun o ho => ?_⟩
  · rcases List.mem_append.mp he' with hold | hnew
    · exact h.1 e' (List.mem_of_mem_eraseIdx hold)
    · exact he.1 e' hnew
  · rcases List.mem_append.mp ho with hold | hnew
    · exact h.2 o hold
    · exact he.2 o hnew

theorem step_total {due : E → Nat} {out : O → Nat}
    (hdue : ((process e).1.map due).sum + ((process e).2.map out).sum = due e) :
    (s.step process k).total due out = s.total due out := by
  have hsum := sum_eraseIdx hk due
  rw [step_eq hk]
  simp only [total, List.map_append, List.sum_append]
  omega

theorem step_cost {cost : E → Nat} (hcost : ((process e).1.map cost).sum < cost e) :
    ((s.step process k).pending.map cost).sum < (s.pending.map cost).sum := by
  have hsum := sum_eraseIdx hk cost
  rw [step_eq hk]
  simp only [List.map_append, List.sum_append]
  omega

end Step

/-- A run is no longer than its first events cost, and keeps what its steps keep. -/
theorem run_rule {okE good : E → Prop} {okO : O → Prop}
    (hprocess : ∀ e, okE e → good e →
      (∀ e' ∈ (process e).1, okE e') ∧ ∀ o ∈ (process e).2, okO o)
    {cost : E → Nat} (hcost : ∀ e, okE e → good e → ((process e).1.map cost).sum < cost e)
    {s : Worklist E O} (hs : (∀ e ∈ s.pending, okE e) ∧ ∀ o ∈ s.done, okO o) {ks : List Nat}
    (hruns : s.RunsWhere process good ks) :
    ks.length + ((ks.foldl (step process) s).pending.map cost).sum ≤ (s.pending.map cost).sum ∧
      (∀ e ∈ (ks.foldl (step process) s).pending, okE e) ∧
      (∀ o ∈ (ks.foldl (step process) s).done, okO o) ∧
      ∀ (due : E → Nat) (out : O → Nat), (∀ e, okE e → good e →
        ((process e).1.map due).sum + ((process e).2.map out).sum = due e) →
          (ks.foldl (step process) s).total due out = s.total due out := by
  induction ks generalizing s with
  | nil => exact ⟨by simp, hs.1, hs.2, fun _ _ _ => rfl⟩
  | cons k ks ih =>
    obtain ⟨⟨e, hk, hgood⟩, hrest⟩ := hruns
    have hok := hs.1 e (List.mem_of_getElem? hk)
    obtain ⟨hlen, hE, hO, htotal⟩ := ih (step_all hk (hprocess e hok hgood) hs) hrest
    have hstep := step_cost hk (hcost e hok hgood)
    refine ⟨?_, hE, hO, fun due out hdue => ?_⟩
    · rw [List.length_cons, List.foldl_cons]
      omega
    · rw [List.foldl_cons, htotal due out hdue, step_total hk (hdue e hok hgood)]

end Worklist

end BmCore.Library
