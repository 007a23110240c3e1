import Mathlib.Order.Basic
import Mathlib.Data.Nat.Init

/-!
# Runs of a machine

A machine is a step function on states, a run is the fold of the step function over the labels of
its steps. `Along` says that every step of a run meets a condition on the state it is taken in
and on its label; an invariant that every such step keeps holds at the end of the run.
-/
namespace BmCore.Library

variable {S L : Type}

/-- Every step of the run from `s` meets `P`. -/
def Along (step : S → L → S) (P : S → L → Prop) : S → List L → Prop
  | _, [] => True
  | s, l :: ls => P s l ∧ Along step P (step s l) ls

def decAlong (step : S → L → S) (P : S → L → Prop) [∀ s l, Decidable (P s l)] :
    (s : S) → (ls : List L) → Decidable (Along step P s ls)
  | _, [] => .isTrue trivial
  | s, l :: ls =>
    have := decAlong step P (step s l) ls
    inferInstanceAs (Decidable (P s l ∧ Along step P (step s l) ls))

instance (step : S → L → S) (P : S → L → Prop) [∀ s l, Decidable (P s l)] (s : S) (ls : List L) :
    Decidable (Along step P s ls) := decAlong step P s ls

theorem along_append {step : S → L → S} {P : S → L → Prop} {s : S} {ls ms : List L} :
    Along step P s (ls ++ ms) ↔ Along step P s ls ∧ Along step P (ls.foldl step s) ms := by
  induction ls generalizing s with
  | nil => simp [Along]
  | cons l ls ih => simp [Along, ih, and_assoc]

theorem along_and {step : S → L → S} {P Q : S → L → Prop} {s : S} {ls : List L}
    (hp : Along step P s ls) (hq : Along step Q s ls) :
    Along step (fun s l => P s l ∧ Q s l) s ls := by
  induction ls generalizing s with
  | nil => trivial
  | cons l ls ih => exact ⟨⟨hp.1, hq.1⟩, ih hp.2 hq.2⟩

theorem along_of_forall {step : S → L → S} {P : S → L → Prop} (h : ∀ s l, P s l) (s : S)
    (ls : List L) : Along step P s ls := by
  induction ls generalizing s with
  | nil => trivial
  | cons l ls ih => exact ⟨h s l, ih _⟩

/-- What every admissible step keeps holds at the end of an admissible run. -/
theorem foldl_invariant {step : S → L → S} {P : S → L → Prop} {Inv : S → Prop}
    (hstep : ∀ s l, Inv s → P s l → Inv (step s l)) {s : S} {ls : List L}
    (hs : Inv s) (hls : Along step P s ls) : Inv (ls.foldl step s) := by
  induction ls generalizing s with
  | nil => exact hs
  | cons l ls ih => exact ih (hstep s l hs hls.1) hls.2

/-- Where just the steps that meet `P` keep a good state good, the runs through good states are
those whose steps all meet `P`. -/
theorem along_invariant_iff {step : S → L → S} {P : S → L → Prop} {Inv Good : S → Prop}
    (hinv : ∀ s l, Inv s → Inv (step s l))
    (hstep : ∀ s l, Inv s → Good s → (Good (step s l) ↔ P s l)) {s : S} {ls : List L}
    (hs : Inv s) (hgood : Good s) :
    Along step (fun s l => Good (step s l)) s ls ↔ Along step P s ls := by
  induction ls generalizing s with
  | nil => exact Iff.rfl
  | cons l ls ih =>
    rw [Along, Along, hstep s l hs hgood]
    apply and_congr_right
    intro hl
    exact ih (hinv s l hs) ((hstep s l hs hgood).mpr hl)

/-- Two machines whose admissible steps are the same have the same admissible runs. -/
theorem foldl_eq_of_along {step step' : S → L → S} {P : S → L → Prop} {Inv : S → Prop}
    (hstep : ∀ s l, Inv s → P s l → Inv (step s l) ∧ step' s l = step s l) {s : S} {ls : List L}
    (hs : Inv s) (hls : Along step P s ls) : ls.foldl step' s = ls.foldl step s := by
  induction ls generalizing s with
  | nil => rfl
  | cons l ls ih =>
    obtain ⟨hnext, heq⟩ := hstep s l hs hls.1
    rw [List.foldl_cons, List.foldl_cons, heq]
    exact ih hnext hls.2

section Observer
variable {T : Type} {step : S → L → S} {obs : T → L → T} {π : T → S}

/-- An observer of a machine sees its runs. -/
theorem foldl_observer (hobs : ∀ t l, π (obs t l) = step (π t) l) (t : T) (ls : List L) :
    π (ls.foldl obs t) = ls.foldl step (π t) := by
  induction ls generalizing t with
  | nil => rfl
  | cons l ls ih =>
    rw [List.foldl_cons, List.foldl_cons, ih, hobs]

theorem along_observer (hobs : ∀ t l, π (obs t l) = step (π t) l) {P : S → L → Prop} {t : T}
    {ls : List L} (h : Along step P (π t) ls) : Along obs (fun t l => P (π t) l) t ls := by
  induction ls generalizing t with
  | nil => trivial
  | cons l ls ih =>
    refine ⟨h.1, ih ?_⟩
    rw [hobs]
    exact h.2

end Observer

section Answers
variable {O A : Type}

/-- What a machine answers to the calls of a run, and the state it is left in. -/
def answers (step : S → L → O × S) : S → List L → List O × S
  | s, [] => ([], s)
  | s, l :: ls => ((step s l).1 :: (answers step (step s l).2 ls).1,
      (answers step (step s l).2 ls).2)

section Refinement
variable {R : S → A → Prop} {step : S → L → O × S} {spec : A → L → O × A} {s : S} {a : A}

/-- A machine that answers every admissible call as its specification does and stays related to it
answers every admissible run as the specification does. -/
theorem answers_refine_along {P : S → L → Prop} {P' : A → L → Prop}
    (hstep : ∀ s a l, R s a → P s l → P' a l →
      (step s l).1 = (spec a l).1 ∧ R (step s l).2 (spec a l).2) {ls : List L} (h : R s a)
    (hs : Along (fun s l => (step s l).2) P s ls) (ha : Along (fun a l => (spec a l).2) P' a ls) :
    (answers step s ls).1 = (answers spec a ls).1 ∧
      R (answers step s ls).2 (answers spec a ls).2 := by
  induction ls generalizing s a with
  | nil => exact ⟨rfl, h⟩
  | cons l ls ih =>
    obtain ⟨hanswer, hnext⟩ := hstep s a l h hs.1 ha.1
    obtain ⟨hanswers, hend⟩ := ih hnext hs.2 ha.2
    refine ⟨?_, hend⟩
    simp only [answers, hanswer, hanswers]

/-- The same where every call is admissible. -/
theorem answers_refine
    (hstep : ∀ s a l, R s a → (step s l).1 = (spec a l).1 ∧ R (step s l).2 (spec a l).2)
    (ls : List L) (h : R s a) :
    (answers step s ls).1 = (answers spec a ls).1 ∧
      R (answers step s ls).2 (answers spec a ls).2 :=
  answers_refine_along (fun s a l h _ _ => hstep s a l h) h
    (along_of_forall (P := fun _ _ => True) (fun _ _ => trivial) s ls)
    (along_of_forall (P := fun _ _ => True) (fun _ _ => trivial) a ls)

end Refinement

end Answers

section Infinite
variable {M : Type} {r : M → M → Prop} {x : Nat → S}

/-- A run that comes closer to its goal with every step gets there. -/
theorem exists_goal_of_decreasing (Inv Goal : S → Prop) (wf : WellFounded r) (μ : S → M)
    (hstep : ∀ n, Inv (x n) → ¬Goal (x n) → Inv (x (n + 1)) ∧ r (μ (x (n + 1))) (μ (x n)))
    (h : Inv (x 0)) : ∃ n, Goal (x n) := by
  have hfrom : ∀ m n, μ (x n) = m → Inv (x n) → ∃ k, Goal (x k) := by
    intro m
    induction m using wf.induction with
    | _ m ih =>
      rintro n rfl hinv
      by_cases hgoal : Goal (x n)
      · exact ⟨n, hgoal⟩
      · obtain ⟨hnext, hlt⟩ := hstep n hinv hgoal
        exact ih _ hlt (n + 1) rfl hnext
  exact hfrom _ 0 rfl h

/-- What every step keeps holds from its first state on. -/
theorem forall_ge_of_step {Inv : S → Prop} (hstep : ∀ n, Inv (x n) → Inv (x (n + 1))) {n : Nat}
    (h : Inv (x n)) : ∀ m, n ≤ m → Inv (x m) := by
  intro m hm
  induction m, hm using Nat.le_induction with
  | base => exact h
  | succ m _ ih => exact hstep m ih

end Infinite

section Fair
variable {step : S → L → S} {schedule : Nat → L}

/-- The states of a machine under a schedule. -/
def stateAt (step : S → L → S) (schedule : Nat → L) (s : S) : Nat → S
  | 0 => s
  | n + 1 => step (stateAt step schedule s n) (schedule n)

/-- Every move is made again and again. -/
def Fair (schedule : Nat → L) : Prop := ∀ l n, ∃ k, schedule (n + k) = l

/-- A state lasts until a move changes it, and a fair schedule makes such a move. -/
theorem Fair.exists_change (hfair : Fair schedule) {Changes : S → L → Prop} {s : S} {n : Nat}
    {l : L}
    (hidle : ∀ s l, ¬Changes s l → step s l = s) (hl : Changes (stateAt step schedule s n) l) :
    ∃ k, stateAt step schedule s k = stateAt step schedule s n ∧
      Changes (stateAt step schedule s k) (schedule k) := by
  obtain ⟨d, hd⟩ := hfair l n
  induction d generalizing n with
  | zero => exact ⟨n, rfl, hd ▸ hl⟩
  | succ d ih =>
    by_cases hchange : Changes (stateAt step schedule s n) (schedule n)
    · exact ⟨n, rfl, hchange⟩
    · have hsame : stateAt step schedule s (n + 1) = stateAt step schedule s n := hidle _ _ hchange
      rw [← hsame]
      exact ih (hsame ▸ hl) (by rw [← hd]; congr 1; omega)

/-- A fair schedule gets to the goal when there is always something left to do, and whatever is done
comes closer: `Inv m s` says that the state `s` is at most `m` changes away. -/
theorem Fair.reaches (hfair : Fair schedule) (Inv : Nat → S → Prop) (Goal : S → Prop)
    (Changes : S → L → Prop) (hidle : ∀ s l, ¬Changes s l → step s l = s)
    (hleft : ∀ m s, Inv m s → ∃ l, Changes s l)
    (hstep : ∀ m s l, Inv m s → Changes s l → Goal (step s l) ∨ ∃ m' < m, Inv m' (step s l))
    {m : Nat} {s : S} (h : Inv m s) : ∃ n, Goal (stateAt step schedule s n) := by
  have hfrom : ∀ m n, Inv m (stateAt step schedule s n) →
      ∃ k, Goal (stateAt step schedule s k) := by
    intro m
    induction m using Nat.strong_induction_on with
    | _ m ih =>
      intro n hinv
      obtain ⟨l, hl⟩ := hleft m _ hinv
      obtain ⟨k, hsame, hchange⟩ := hfair.exists_change hidle hl
      rw [← hsame] at hinv
      rcases hstep m _ _ hinv hchange with hgoal | ⟨m', hlt, hnext⟩
      · exact ⟨k + 1, hgoal⟩
      · exact ih m' hlt (k + 1) hnext
  exact hfrom m 0 h

end Fair

end BmCore.Library
