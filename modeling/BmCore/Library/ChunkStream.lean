import BmCore.Library.Runs
import Mathlib.Algebra.BigOperators.Group.List.Basic
import Mathlib.Algebra.GroupWithZero.Nat
import Mathlib.Data.List.Basic

/-!
# Records in a stream of chunks

A sender cuts records into chunks. A chunk says where in its payload a record starts and where one
ends, so that a record may begin in the chunk that the record before it ends in. `Reassembly.step`
is what the chunks mean, `Fits` says which chunk may come next, and `Progress` follows a sender
through a list of records.
-/
namespace BmCore.Library

variable {τ α : Type}

/-- A chunk that carries a part of a record, or the end of one and the start of the next. -/
structure Chunk (τ α : Type) where
  /-- what the chunk says about the record that starts in it -/
  tag : τ
  /-- the offset of the first item of a record -/
  start : Option Nat
  /-- the offset of the last item of a record -/
  stop : Option Nat
  payload : List α
  deriving DecidableEq

/-- The records received so far, and what has been received of the next one. -/
structure Reassembly (τ α : Type) where
  records : List (τ × List α)
  opened : Option (τ × List α)

namespace Reassembly

def init : Reassembly τ α := ⟨[], none⟩

/-- The open record ends with `xs`. -/
def close (s : Reassembly τ α) (xs : List α) : Reassembly τ α :=
  { records := s.records ++ (s.opened.map fun r => (r.1, r.2 ++ xs)).toList, opened := none }

/-- A chunk arrives. -/
def step (s : Reassembly τ α) (c : Chunk τ α) : Reassembly τ α :=
  match c.start, c.stop with
  | none, none => { s with opened := s.opened.map fun r => (r.1, r.2 ++ c.payload) }
  | none, some e => s.close (c.payload.take (e + 1))
  | some b, none => { s with opened := some (c.tag, c.payload.drop b) }
  | some b, some e =>
    if b ≤ e then
      { records := s.records ++ [(c.tag, (c.payload.take (e + 1)).drop b)], opened := none }
    else
      { records := (s.close (c.payload.take (e + 1))).records
        opened := some (c.tag, c.payload.drop b) }

/-- What a stream of chunks means. -/
def decode (cs : List (Chunk τ α)) : Reassembly τ α := cs.foldl step init

/-- The chunk may come next: records start where none is open and end where one is. -/
def Fits (s : Reassembly τ α) (c : Chunk τ α) : Prop :=
  match c.start, c.stop with
  | none, none => s.opened.isSome
  | none, some e => s.opened.isSome ∧ e < c.payload.length
  | some b, none => s.opened = none ∧ b < c.payload.length
  | some b, some e => b < c.payload.length ∧ e < c.payload.length ∧
      if b ≤ e then s.opened = none else s.opened.isSome

instance (s : Reassembly τ α) (c : Chunk τ α) : Decidable (s.Fits c) := by
  unfold Fits
  cases c.start <;> cases c.stop <;> cases s.opened <;> exact inferInstance

end Reassembly

/-! ## Senders -/

/-- A sender cuts a chunk off its pending records, of the first of which `off` items have been sent.
What is behind the last item of the last record does not matter. -/
inductive Cut : List (List α) → Nat → Chunk τ α → List (List α) → Nat → Prop
  /-- the first items of a record -/
  | head {f : List α} {rest : List (List α)} {c : Chunk τ α} {b n : Nat}
      (start : c.start = some b) (stop : c.stop = none) (pos : 0 < n) (lt : n < f.length)
      (size : b + n = c.payload.length) (payload : c.payload.drop b = f.take n) :
      Cut (f :: rest) 0 c (f :: rest) n
  /-- items from the middle of a record -/
  | middle {f : List α} {rest : List (List α)} {off n : Nat} {c : Chunk τ α}
      (start : c.start = none) (stop : c.stop = none) (opened : 0 < off) (pos : 0 < n)
      (lt : off + n < f.length) (payload : c.payload = (f.drop off).take n) :
      Cut (f :: rest) off c (f :: rest) (off + n)
  /-- the last items of a record -/
  | last {f : List α} {rest : List (List α)} {off e : Nat} {c : Chunk τ α}
      (start : c.start = none) (stop : c.stop = some e) (opened : 0 < off)
      (size : e < c.payload.length) (length : off + (e + 1) = f.length)
      (payload : c.payload.take (e + 1) = f.drop off) : Cut (f :: rest) off c rest 0
  /-- a record in one chunk -/
  | whole {f : List α} {rest : List (List α)} {b e : Nat} {c : Chunk τ α}
      (start : c.start = some b) (stop : c.stop = some e) (le : b ≤ e)
      (size : e < c.payload.length) (length : b + f.length = e + 1)
      (payload : (c.payload.take (e + 1)).drop b = f) : Cut (f :: rest) 0 c rest 0
  /-- the last items of a record and the first ones of the next -/
  | lastHead {f g : List α} {rest : List (List α)} {off b e n : Nat} {c : Chunk τ α}
      (start : c.start = some b) (stop : c.stop = some e) (opened : 0 < off) (lt : e < b)
      (length : off + (e + 1) = f.length) (last : c.payload.take (e + 1) = f.drop off)
      (pos : 0 < n) (short : n < g.length) (size : b + n = c.payload.length)
      (payload : c.payload.drop b = g.take n) : Cut (f :: g :: rest) off c (g :: rest) n

/-- A sender cuts chunks off one after the other. -/
inductive Cuts : List (List α) → Nat → List (Chunk τ α) → List (List α) → Nat → Prop
  | nil {pending : List (List α)} {off : Nat} : Cuts pending off [] pending off
  | snoc {pending pending' pending'' : List (List α)} {off off' off'' : Nat}
      {cs : List (Chunk τ α)} {c : Chunk τ α} (cuts : Cuts pending off cs pending' off')
      (cut : Cut pending' off' c pending'' off'') : Cuts pending off (cs ++ [c]) pending'' off''

theorem Cuts.of_concat {pending pending' : List (List α)} {off off' : Nat} {cs : List (Chunk τ α)}
    {c : Chunk τ α} (h : Cuts pending off (cs ++ [c]) pending' off') :
    ∃ pending₁ off₁, Cuts pending off cs pending₁ off₁ ∧ Cut pending₁ off₁ c pending' off' := by
  generalize hcs : cs ++ [c] = cs' at h
  cases h with
  | nil => simp at hcs
  | snoc cuts cut =>
    obtain ⟨rfl, rfl⟩ : _ = _ ∧ c = _ := by simpa using hcs
    exact ⟨_, _, cuts, cut⟩

/-- How many items a sender has not sent yet. -/
def remaining (pending : List (List α)) (off : Nat) : Nat :=
  (pending.map List.length).sum - off

/-- All of `all` but `pending` has been sent, and of the first record of `pending` the first `off`
items. -/
structure Progress (all : List (List α)) (s : Reassembly τ α) (pending : List (List α))
    (off : Nat) : Prop where
  sent : s.records.map Prod.snd ++ pending = all
  opened : s.opened.map Prod.snd = if off = 0 then none else pending.head?.map (·.take off)

namespace Cut
variable {pending pending' : List (List α)} {off off' : Nat} {c : Chunk τ α}

/-- A chunk carries something, and no more than fits into it. -/
theorem remaining_lt (h : Cut pending off c pending' off') :
    remaining pending' off' < remaining pending off ∧
      remaining pending off ≤ remaining pending' off' + c.payload.length := by
  cases h with
  | head start stop pos lt size payload =>
    simp only [remaining, List.map_cons, List.sum_cons]
    omega
  | middle start stop opened pos lt payload =>
    have hlength := congrArg List.length payload
    simp only [List.length_take, List.length_drop] at hlength
    simp only [remaining, List.map_cons, List.sum_cons]
    omega
  | last start stop opened size length payload =>
    simp only [remaining, List.map_cons, List.sum_cons]
    omega
  | whole start stop le size length payload =>
    simp only [remaining, List.map_cons, List.sum_cons]
    omega
  | lastHead start stop opened lt length last pos short size payload =>
    simp only [remaining, List.map_cons, List.sum_cons]
    omega

end Cut

namespace Progress
variable {all pending pending' : List (List α)} {s : Reassembly τ α} {off off' : Nat}
  {c : Chunk τ α}

theorem start (all : List (List α)) : Progress all (Reassembly.init (τ := τ)) all 0 :=
  ⟨rfl, rfl⟩

/-- New records queue up behind the ones that are pending. -/
theorem append (h : Progress all s pending off) (hoff : pending = [] → off = 0)
    (fs : List (List α)) : Progress (all ++ fs) s (pending ++ fs) off := by
  refine ⟨by rw [← List.append_assoc, h.sent], ?_⟩
  rw [h.opened]
  cases pending with
  | nil => simp [hoff rfl]
  | cons f rest => rfl

/-- The open record of a sender. -/
theorem opened_eq {f : List α} {rest : List (List α)} (h : Progress all s (f :: rest) off)
    (hoff : 0 < off) : ∃ t, s.opened = some (t, f.take off) := by
  have hopened := h.opened
  rw [if_neg (Nat.pos_iff_ne_zero.mp hoff)] at hopened
  simpa using hopened

theorem opened_eq_none (h : Progress all s pending 0) : s.opened = none := by
  simpa using h.opened

/-- Every chunk that is cut off may come next. -/
theorem fits (h : Progress all s pending off) (hcut : Cut pending off c pending' off') :
    s.Fits c := by
  cases hcut with
  | head start stop pos lt size payload =>
    simp only [Reassembly.Fits, start, stop]
    exact ⟨h.opened_eq_none, by omega⟩
  | middle start stop opened pos lt payload =>
    obtain ⟨t, ht⟩ := h.opened_eq opened
    simp [Reassembly.Fits, start, stop, ht]
  | last start stop opened size length payload =>
    obtain ⟨t, ht⟩ := h.opened_eq opened
    simp [Reassembly.Fits, start, stop, ht, size]
  | whole start stop le size length payload =>
    simp only [Reassembly.Fits, start, stop, if_pos le]
    exact ⟨by omega, size, h.opened_eq_none⟩
  | lastHead start stop opened lt length last pos short size payload =>
    obtain ⟨t, ht⟩ := h.opened_eq opened
    simp only [Reassembly.Fits, start, stop, ht, if_neg (Nat.not_le.mpr lt)]
    exact ⟨by omega, by omega, rfl⟩

/-- A chunk that is cut off means what it was cut off from. -/
theorem step (h : Progress all s pending off) (hcut : Cut pending off c pending' off') :
    Progress all (s.step c) pending' off' := by
  have hsent := h.sent
  cases hcut with
  | head start stop pos lt size payload =>
    refine ⟨?_, ?_⟩
    · simpa [Reassembly.step, start, stop] using hsent
    · simp [Reassembly.step, start, stop, payload, Nat.pos_iff_ne_zero.mp pos]
  | middle start stop opened pos lt payload =>
    obtain ⟨t, ht⟩ := h.opened_eq opened
    refine ⟨?_, ?_⟩
    · simpa [Reassembly.step, start, stop] using hsent
    · simp [Reassembly.step, start, stop, ht, payload, List.take_add, Nat.ne_of_gt opened]
  | last start stop opened size length payload =>
    obtain ⟨t, ht⟩ := h.opened_eq opened
    refine ⟨?_, ?_⟩
    · rw [← hsent]
      simp [Reassembly.step, Reassembly.close, start, stop, ht, payload]
    · simp [Reassembly.step, Reassembly.close, start, stop]
  | whole start stop le size length payload =>
    refine ⟨?_, ?_⟩
    · rw [← hsent]
      simp [Reassembly.step, start, stop, le, payload]
    · simp [Reassembly.step, start, stop, le]
  | lastHead start stop opened lt length last pos short size payload =>
    obtain ⟨t, ht⟩ := h.opened_eq opened
    have hlt := Nat.not_le.mpr lt
    refine ⟨?_, ?_⟩
    · rw [← hsent]
      simp [Reassembly.step, Reassembly.close, start, stop, hlt, ht, last]
    · simp [Reassembly.step, start, stop, hlt, payload, Nat.pos_iff_ne_zero.mp pos]

/-- The chunks that are cut off mean what they were cut off from, and each may come next. -/
theorem cuts {cs : List (Chunk τ α)} (h : Progress all s pending off)
    (hcuts : Cuts pending off cs pending' off') :
    Progress all (cs.foldl Reassembly.step s) pending' off' ∧
      Along Reassembly.step Reassembly.Fits s cs := by
  induction hcuts with
  | nil => exact ⟨h, trivial⟩
  | snoc hcuts hcut ih =>
    obtain ⟨hprogress, hfits⟩ := ih h
    rw [List.foldl_append]
    exact ⟨hprogress.step hcut, along_append.mpr ⟨hfits, hprogress.fits hcut, trivial⟩⟩

end Progress

end BmCore.Library
