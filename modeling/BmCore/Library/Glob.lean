import Mathlib.Data.List.Forall2
import Mathlib.Data.List.Infix

/-!
# Patterns

A pattern is a list of tokens: a symbol, any one symbol, or any string. A matcher that reads a
string from left to right has to remember the last `many` only: what stands before it has been
matched as early as possible, so a later `many` is reached with the longest rest.
-/
namespace BmCore.Library

variable {α : Type*}

inductive Token (α : Type*) where
  | lit (a : α)
  | one
  | many
  deriving DecidableEq

/-- The token stands for this one symbol. -/
def Token.Fits : Token α → α → Prop
  | .lit a, b => a = b
  | .one, _ => True
  | .many, _ => False

/-- The pattern matches the whole string. -/
inductive Globs : List (Token α) → List α → Prop where
  | nil : Globs [] []
  | char {t : Token α} {a : α} {p : List (Token α)} {s : List α} (hfits : t.Fits a)
      (hrest : Globs p s) : Globs (t :: p) (a :: s)
  | many (u : List α) {p : List (Token α)} {s : List α} (hrest : Globs p s) :
      Globs (.many :: p) (u ++ s)

/-- The tokens stand for the symbols one by one. -/
abbrev Fit (p : List (Token α)) (s : List α) : Prop := List.Forall₂ Token.Fits p s

/-- With a `many` in it a pattern is matched with the whole string, without with a prefix. -/
def Accepts (p : List (Token α)) (s : List α) : Prop :=
  (.many ∈ p ∧ Globs p s) ∨ (.many ∉ p ∧ ∃ u, u <+: s ∧ Fit p u)

section
variable {t : Token α} {p q : List (Token α)} {a : α} {s u v : List α}

/-! ## The pieces of a pattern -/

@[simp] theorem globs_nil_left : Globs [] s ↔ s = [] := by
  constructor
  · rintro ⟨⟩
    rfl
  · rintro rfl
    exact .nil

theorem globs_many : Globs (.many :: p) s ↔ ∃ u v, s = u ++ v ∧ Globs p v := by
  constructor
  · intro h
    cases h with
    | char hfits => exact hfits.elim
    | many u hrest => exact ⟨u, _, rfl, hrest⟩
  · rintro ⟨u, v, rfl, hrest⟩
    exact .many u hrest

theorem globs_cons (ht : t ≠ .many) :
    Globs (t :: p) s ↔ ∃ a v, s = a :: v ∧ t.Fits a ∧ Globs p v := by
  constructor
  · intro h
    cases h with
    | char hfits hrest => exact ⟨_, _, rfl, hfits, hrest⟩
    | many u hrest => exact absurd rfl ht
  · rintro ⟨a, v, rfl, hfits, hrest⟩
    exact .char hfits hrest

theorem Token.Fits.ne_many (h : t.Fits a) : t ≠ .many := by
  rintro rfl
  exact h

theorem Fit.many_notMem (h : Fit p s) : Token.many ∉ p := by
  induction h with
  | nil => simp
  | cons hfits _ ih => simp [hfits.ne_many.symm, ih]

theorem Fit.globs (h : Fit p s) : Globs p s := by
  induction h with
  | nil => exact .nil
  | cons hfits _ ih => exact .char hfits ih

/-- Tokens for one symbol each take as many symbols as they are. -/
theorem globs_append (hq : .many ∉ q) :
    Globs (q ++ p) s ↔ ∃ u v, s = u ++ v ∧ Fit q u ∧ Globs p v := by
  induction q generalizing s with
  | nil => simp
  | cons t q ih =>
    rw [List.mem_cons, not_or] at hq
    obtain ⟨ht, hq⟩ := hq
    rw [List.cons_append, globs_cons (Ne.symm ht)]
    constructor
    · rintro ⟨a, v, rfl, hfits, hrest⟩
      obtain ⟨u, w, rfl, hfit, hrest⟩ := (ih hq).mp hrest
      exact ⟨a :: u, w, rfl, .cons hfits hfit, hrest⟩
    · rintro ⟨u, w, rfl, hfit, hrest⟩
      cases hfit with
      | cons hfits hfit => exact ⟨_, _, rfl, hfits, (ih hq).mpr ⟨_, w, rfl, hfit, hrest⟩⟩

/-- Behind tokens and symbols that have been read along, the rests decide. -/
theorem Fit.globs_append (h : Fit q u) : Globs (q ++ p) (u ++ v) ↔ Globs p v := by
  constructor
  · intro hglobs
    obtain ⟨u', v', heq, hfit, hrest⟩ := (Library.globs_append h.many_notMem).mp hglobs
    have hlen : u.length = u'.length := h.length_eq.symm.trans hfit.length_eq
    obtain ⟨-, rfl⟩ := List.append_inj heq hlen
    exact hrest
  · intro hrest
    exact (Library.globs_append h.many_notMem).mpr ⟨u, v, rfl, h, hrest⟩

theorem globs_nil_right : Globs p ([] : List α) ↔ ∀ t ∈ p, t = .many := by
  induction p with
  | nil => simp
  | cons t p ih =>
    rw [List.forall_mem_cons, ← ih]
    constructor
    · intro h
      generalize hs : ([] : List α) = s at h
      cases h with
      | char => cases hs
      | many u hrest =>
        obtain ⟨rfl, rfl⟩ := List.append_eq_nil_iff.mp hs.symm
        exact ⟨rfl, hrest⟩
    · rintro ⟨rfl, hrest⟩
      exact .many [] hrest

/-! ## The last `many` -/

/-- A later `many` takes over. -/
theorem Fit.globs_later_many (h : Fit q u) :
    Globs (.many :: (q ++ .many :: p)) (u ++ v) ↔ Globs (.many :: p) v := by
  constructor
  · intro hglobs
    obtain ⟨w, x, heq, hx⟩ := globs_many.mp hglobs
    obtain ⟨u', y, rfl, hfit, hy⟩ := (Library.globs_append h.many_notMem).mp hx
    obtain ⟨z, r, rfl, hr⟩ := globs_many.mp hy
    -- the tokens took their symbols at `u` or behind it
    have hlen : u.length ≤ (w ++ u').length := by
      simp [← h.length_eq, hfit.length_eq]
    have hwhole : u ++ v = (w ++ u') ++ (z ++ r) := by rw [heq, List.append_assoc]
    have hprefix : u <+: w ++ u' :=
      List.prefix_of_prefix_length_le ⟨v, rfl⟩ ⟨z ++ r, hwhole.symm⟩ hlen
    obtain ⟨c, hc⟩ := hprefix
    rw [← hc, List.append_assoc] at hwhole
    exact globs_many.mpr ⟨c ++ z, r, by rw [List.append_cancel_left hwhole, List.append_assoc], hr⟩
  · intro hglobs
    exact globs_many.mpr ⟨[], u ++ v, rfl, h.globs_append.mpr hglobs⟩

/-- Where the rest is not matched, the `many` takes one more symbol. -/
theorem globs_many_tail (h : ¬ Globs p s) : Globs (.many :: p) s ↔ Globs (.many :: p) s.tail := by
  cases s with
  | nil => rfl
  | cons a s =>
    rw [List.tail_cons, globs_many, globs_many]
    constructor
    · rintro ⟨u, v, heq, hv⟩
      cases u with
      | nil => exact absurd (by rwa [heq]) h
      | cons b u => exact ⟨u, v, (List.cons.inj heq).2, hv⟩
    · rintro ⟨u, v, rfl, hv⟩
      exact ⟨a :: u, v, rfl, hv⟩

/-- At the end of the string the `many` before has no more symbols to take. -/
theorem Fit.globs_end (h : Fit q u) :
    Globs (.many :: (q ++ p)) u ↔ ∀ t ∈ p, t = .many := by
  rw [← globs_nil_right (α := α)]
  constructor
  · intro hglobs
    obtain ⟨w, x, heq, hx⟩ := globs_many.mp hglobs
    obtain ⟨u', y, rfl, hfit, hy⟩ := (Library.globs_append h.many_notMem).mp hx
    have hlen := congrArg List.length heq
    have hu := h.length_eq
    have hu' := hfit.length_eq
    simp only [List.length_append] at hlen
    obtain rfl := List.length_eq_zero_iff.mp (show y.length = 0 by omega)
    exact hy
  · intro hrest
    have hwhole := (h.globs_append (v := [])).mpr hrest
    rw [List.append_nil] at hwhole
    exact globs_many.mpr ⟨[], u, rfl, hwhole⟩

/-! ## Patterns without a `many` so far -/

theorem Fit.accepts_end (h : Fit q u) : Accepts (q ++ p) u ↔ ∀ t ∈ p, t = .many := by
  have hglobs := h.globs_append (p := p) (v := [])
  rw [List.append_nil, globs_nil_right] at hglobs
  constructor
  · rintro (⟨-, hwhole⟩ | ⟨hmany, u', ⟨v, hprefix⟩, hfit⟩)
    · exact hglobs.mp hwhole
    · have hlen := congrArg List.length hprefix
      have hu := h.length_eq
      have hu' := hfit.length_eq
      simp only [List.length_append] at hlen hu'
      obtain rfl := List.length_eq_zero_iff.mp (show p.length = 0 by omega)
      simp
  · intro hall
    by_cases hmany : Token.many ∈ p
    · exact .inl ⟨List.mem_append_right q hmany, hglobs.mpr hall⟩
    · cases p with
      | nil =>
        rw [List.append_nil]
        exact .inr ⟨h.many_notMem, u, List.prefix_rfl, h⟩
      | cons t p => simp [hall t] at hmany

/-- A pattern that has been read to its end matches a prefix. -/
theorem Fit.accepts (h : Fit q u) (v : List α) : Accepts q (u ++ v) :=
  .inr ⟨h.many_notMem, u, List.prefix_append u v, h⟩

/-- Nothing is matched where a symbol does not fit. -/
theorem Fit.not_accepts (h : Fit q u) (ht : t ≠ .many) (hfits : ¬ t.Fits a) :
    ¬ Accepts (q ++ t :: p) (u ++ a :: v) := by
  rintro (⟨-, hwhole⟩ | ⟨-, u', ⟨w, hprefix⟩, hfit⟩)
  · obtain ⟨b, v', heq, hb, -⟩ := (globs_cons ht).mp (h.globs_append.mp hwhole)
    obtain ⟨rfl, rfl⟩ := List.cons.inj heq
    exact hfits hb
  · obtain ⟨u₁, u₂, rfl, hfit₁, hrest⟩ := (Library.globs_append h.many_notMem).mp hfit.globs
    obtain ⟨b, v', rfl, hb, -⟩ := (globs_cons ht).mp hrest
    rw [List.append_assoc] at hprefix
    have hlen : u₁.length = u.length := hfit₁.length_eq.symm.trans h.length_eq
    obtain ⟨rfl, heq⟩ := List.append_inj hprefix hlen
    obtain ⟨rfl, rfl⟩ := List.cons.inj heq
    exact hfits hb

end

end BmCore.Library
