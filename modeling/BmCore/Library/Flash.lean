import Mathlib.Data.Nat.Basic

/-!
# Erase before write

The discipline of a flash part: a cell is written only when it has been erased and not written
since. A history is the list of operations made so far, latest first. Writing front to back over
an erased range keeps the discipline, with everything behind the last write still fresh.
-/
namespace BmCore.Library

inductive FlashOp where
  | erase (off len : Nat)
  | write (off len : Nat)
  deriving DecidableEq, Repr

/-- Cell `i` is erased and has not been written since. -/
def Fresh : List FlashOp → Nat → Prop
  | [], _ => False
  | .erase off len :: ops, i => (off ≤ i ∧ i < off + len) ∨ Fresh ops i
  | .write off len :: ops, i => ¬ (off ≤ i ∧ i < off + len) ∧ Fresh ops i

/-- Every write of the history stays below `size` and only hits fresh cells. -/
def Disciplined (size : Nat) : List FlashOp → Prop
  | [] => True
  | .erase _ _ :: ops => Disciplined size ops
  | .write off len :: ops => (∀ k < len, off + k < size ∧ Fresh ops (off + k)) ∧
    Disciplined size ops

def decFresh : (ops : List FlashOp) → (i : Nat) → Decidable (Fresh ops i)
  | [], _ => .isFalse id
  | .erase off len :: ops, i =>
    have := decFresh ops i
    inferInstanceAs (Decidable ((off ≤ i ∧ i < off + len) ∨ Fresh ops i))
  | .write off len :: ops, i =>
    have := decFresh ops i
    inferInstanceAs (Decidable (¬ (off ≤ i ∧ i < off + len) ∧ Fresh ops i))

instance (ops : List FlashOp) (i : Nat) : Decidable (Fresh ops i) := decFresh ops i

def decDisciplined (size : Nat) : (ops : List FlashOp) → Decidable (Disciplined size ops)
  | [] => .isTrue trivial
  | .erase _ _ :: ops => decDisciplined size ops
  | .write off len :: ops =>
    have := decDisciplined size ops
    inferInstanceAs (Decidable
      ((∀ k < len, off + k < size ∧ Fresh ops (off + k)) ∧ Disciplined size ops))

instance (size : Nat) (ops : List FlashOp) : Decidable (Disciplined size ops) :=
  decDisciplined size ops

/-- Every cell from `off` up to `size` is fresh. -/
def FreshFrom (size : Nat) (ops : List FlashOp) (off : Nat) : Prop :=
  ∀ i, off ≤ i → i < size → Fresh ops i

variable {size off : Nat} {ops : List FlashOp}

theorem freshFrom_erase (size : Nat) (ops : List FlashOp) :
    FreshFrom size (.erase 0 size :: ops) 0 :=
  fun i _ hi => .inl ⟨Nat.zero_le i, by omega⟩

/-- Behind a write the cells are as fresh as before. -/
theorem FreshFrom.write (h : FreshFrom size ops off) (len : Nat) :
    FreshFrom size (.write off len :: ops) (off + len) :=
  fun i hle hlt => ⟨by omega, h i (by omega) hlt⟩

/-- Writing at the front of the fresh range keeps the discipline. -/
theorem Disciplined.write (h : Disciplined size ops) (hf : FreshFrom size ops off) {len : Nat}
    (hle : off + len ≤ size) : Disciplined size (.write off len :: ops) :=
  ⟨fun k hk => ⟨by omega, hf (off + k) (by omega) (by omega)⟩, h⟩

end BmCore.Library
