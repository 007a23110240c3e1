import BmCore.Library.Bytes
import Mathlib.Data.Nat.Bitwise

/-!
# Byte orders

Numbers of several bytes in either byte order, and packed records of them. A record whose fields are
reversed in place, each over its own width, is the record of the same numbers in the other order.
-/
namespace BmCore.Library

inductive ByteOrder where
  | little | big
  deriving DecidableEq, Repr

namespace ByteOrder

/-- The `k` low bytes of `n`. -/
def bytes (o : ByteOrder) (k n : Nat) : List UInt8 :=
  match o with
  | .little => leBytes k n
  | .big => (leBytes k n).reverse

/-- The number that the bytes stand for. -/
def nat (o : ByteOrder) (bs : List UInt8) : Nat :=
  match o with
  | .little => leNat bs
  | .big => leNat bs.reverse

@[simp] theorem bytes_length (o : ByteOrder) (k n : Nat) : (o.bytes k n).length = k := by
  cases o <;> simp [bytes]

theorem nat_bytes (o : ByteOrder) {k n : Nat} (h : n < 256 ^ k) : o.nat (o.bytes k n) = n := by
  cases o with
  | little => exact leNat_leBytes h
  | big => rw [nat, bytes, List.reverse_reverse, leNat_leBytes h]

/-- The same number in the other order. -/
theorem big_nat_reverse (bs : List UInt8) : nat .big bs.reverse = nat .little bs := by simp [nat]

end ByteOrder

/-! ## Reversed bytes -/

theorem leBytes_getElem (k n i : Nat) (h : i < (leBytes k n).length) :
    (leBytes k n)[i] = UInt8.ofNat (n / 256 ^ i) := by
  induction k generalizing n i with
  | zero => simp at h
  | succ k ih =>
    cases i with
    | zero => simp [leBytes]
    | succ i => simp [leBytes, ih, Nat.div_div_eq_div_mul, Nat.pow_succ, Nat.mul_comm]

/-- Two numbers have the same bytes in opposite orders if their bits say so. -/
theorem leBytes_eq_reverse {k m n : Nat}
    (h : ∀ i < 8 * k, m.testBit i = n.testBit (8 * (k - 1 - i / 8) + i % 8)) :
    leBytes k m = (leBytes k n).reverse := by
  refine List.ext_getElem (by simp) fun j hj hj' => ?_
  have hjk : j < k := by simpa using hj
  rw [List.getElem_reverse, leBytes_getElem, leBytes_getElem, leBytes_length]
  apply UInt8.toNat_inj.mp
  rw [UInt8.toNat_ofNat', UInt8.toNat_ofNat']
  refine Nat.eq_of_testBit_eq fun b => ?_
  have hpow : ∀ x y : Nat, x / 256 ^ y = x / 2 ^ (8 * y) := by
    intro x y
    rw [Nat.pow_mul]
  rw [Nat.testBit_mod_two_pow, Nat.testBit_mod_two_pow, hpow, hpow, Nat.testBit_div_two_pow,
    Nat.testBit_div_two_pow]
  by_cases hb : b < 8
  · have hbit := h (b + 8 * j) (by omega)
    rw [show (b + 8 * j) / 8 = j by omega, show (b + 8 * j) % 8 = b by omega] at hbit
    rw [hbit, Nat.add_comm]
  · simp [hb]

/-- The `w` bytes at an offset are reversed in place. -/
def reverseAt (bs : List UInt8) (off w : Nat) : List UInt8 :=
  bs.take off ++ ((bs.drop off).take w).reverse ++ bs.drop (off + w)

theorem reverseAt_append (pre x post : List UInt8) {off w : Nat} (hoff : pre.length = off)
    (hw : x.length = w) :
    reverseAt (pre ++ x ++ post) off w = pre ++ x.reverse ++ post := by
  subst hoff hw
  have hdrop : (pre ++ x ++ post).drop pre.length = x ++ post := by simp
  have hrest : (pre ++ x ++ post).drop (pre.length + x.length) = post := by simp [← List.drop_drop]
  rw [reverseAt, hdrop, hrest]
  simp

theorem reverseAt_length {bs : List UInt8} {off w : Nat} (h : off + w ≤ bs.length) :
    (reverseAt bs off w).length = bs.length := by
  simp [reverseAt]
  omega

/-! ## Packed records -/

/-- The offsets and widths of the fields of more than one byte. -/
def spans : Nat → List Nat → List (Nat × Nat)
  | _, [] => []
  | off, w :: ws => if 1 < w then (off, w) :: spans (off + w) ws else spans (off + w) ws

/-- Every field is reversed in place. -/
theorem reverse_spans {chunks : List (List UInt8)} {ws : List Nat} (h : chunks.map List.length = ws)
    (pre rest : List UInt8) {off : Nat} (hoff : pre.length = off) :
    (spans off ws).foldl (fun bs s => reverseAt bs s.1 s.2) (pre ++ chunks.flatten ++ rest) =
      pre ++ (chunks.map List.reverse).flatten ++ rest := by
  induction chunks generalizing ws pre off with
  | nil =>
    subst h
    rfl
  | cons c cs ih =>
    subst h
    have hnext : (pre ++ c.reverse).length = off + c.length := by simp [hoff]
    have hrest := ih rfl (pre ++ c.reverse) hnext
    simp only [List.flatten_cons, List.map_cons, spans]
    split
    · have hone := reverseAt_append pre c (cs.flatten ++ rest) hoff rfl
      rw [List.foldl_cons, ← List.append_assoc, List.append_assoc, hone]
      simpa [List.append_assoc] using hrest
    · -- a single byte is its own reverse
      rename_i hlen
      have hself : c.reverse = c := by
        match c, hlen with
        | [], _ => rfl
        | [_], _ => rfl
        | _ :: _ :: _, hlen => simp at hlen
      rw [hself] at hrest ⊢
      simpa [List.append_assoc] using hrest

/-- The fields of a record in memory. -/
def fieldChunks (o : ByteOrder) (ws vs : List Nat) : List (List UInt8) := List.zipWith o.bytes ws vs

/-- A record in memory. -/
def pack (o : ByteOrder) (ws vs : List Nat) : List UInt8 := (fieldChunks o ws vs).flatten

/-- The numbers in a record. -/
def unpack (o : ByteOrder) : List Nat → List UInt8 → List Nat
  | [], _ => []
  | w :: ws, bs => o.nat (bs.take w) :: unpack o ws (bs.drop w)

theorem fieldChunks_length {o : ByteOrder} {ws vs : List Nat} (h : vs.length = ws.length) :
    (fieldChunks o ws vs).map List.length = ws := by
  induction ws generalizing vs with
  | nil => simp [fieldChunks]
  | cons w ws ih =>
    cases vs with
    | nil => simp at h
    | cons v vs =>
      simp only [fieldChunks, List.zipWith_cons_cons, List.map_cons, ByteOrder.bytes_length]
      rw [← fieldChunks, ih (by simpa using h)]

theorem fieldChunks_reverse (ws vs : List Nat) :
    (fieldChunks .little ws vs).map List.reverse = fieldChunks .big ws vs := by
  rw [fieldChunks, fieldChunks, List.map_zipWith]
  rfl

theorem fieldChunks_reverse_big (ws vs : List Nat) :
    (fieldChunks .big ws vs).map List.reverse = fieldChunks .little ws vs := by
  rw [← fieldChunks_reverse, List.map_map]
  simp

theorem unpack_flatten (o : ByteOrder) {chunks : List (List UInt8)} {ws : List Nat}
    (h : chunks.map List.length = ws) (rest : List UInt8) :
    unpack o ws (chunks.flatten ++ rest) = chunks.map o.nat := by
  induction chunks generalizing ws with
  | nil =>
    subst h
    rfl
  | cons c cs ih =>
    subst h
    have hrest := ih rfl
    simp only [List.map_cons, unpack, List.flatten_cons, List.append_assoc, List.take_left,
      List.drop_left, hrest]

/-- A record has the numbers that were put into it. -/
theorem unpack_pack (o : ByteOrder) {ws vs : List Nat} (hlen : vs.length = ws.length)
    (hfits : ∀ field ∈ ws.zip vs, field.2 < 256 ^ field.1) (rest : List UInt8) :
    unpack o ws (pack o ws vs ++ rest) = vs := by
  rw [pack, unpack_flatten o (fieldChunks_length hlen)]
  induction ws generalizing vs with
  | nil =>
    rw [List.length_nil, List.length_eq_zero_iff] at hlen
    subst hlen
    rfl
  | cons w ws ih =>
    cases vs with
    | nil => simp at hlen
    | cons v vs =>
      simp only [List.zip_cons_cons, List.forall_mem_cons] at hfits
      have hrest := ih (by simpa using hlen) hfits.2
      rw [fieldChunks, List.zipWith_cons_cons, List.map_cons, o.nat_bytes hfits.1,
        ← fieldChunks, hrest]

theorem pack_length (o : ByteOrder) {ws vs : List Nat} (h : vs.length = ws.length) :
    (pack o ws vs).length = ws.sum := by
  rw [pack, List.length_flatten, fieldChunks_length h]

end BmCore.Library
