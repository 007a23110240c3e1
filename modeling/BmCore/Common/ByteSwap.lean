import BmCore.Library.ByteOrder
import Mathlib.Tactic.IntervalCases

/-!
# Swapped bytes

The swaps of `common/util.c`. A swap of a number in memory reverses its bytes, in either byte order
of the host. -/
namespace BmCore
open Library

/-- `swap_16bit` -/
def swap16 (x : UInt16) : UInt16 := (x <<< 8) ||| (x >>> 8)

/-- `swap_32bit` -/
def swap32 (x : UInt32) : UInt32 :=
  (x <<< 24) ||| (x &&& (0xFF00 : UInt32)) <<< 8 ||| (x >>> 8 &&& (0xFF00 : UInt32)) ||| (x >>> 24)

/-- `swap_64bit` -/
def swap64 (x : UInt64) : UInt64 :=
  (x <<< 56) ||| (x &&& (0x0000FF00 : UInt64)) <<< 40 ||| (x &&& (0x00FF0000 : UInt64)) <<< 24 |||
    (x &&& (0xFF000000 : UInt64)) <<< 8 ||| (x >>> 8 &&& (0xFF000000 : UInt64)) |||
    (x >>> 24 &&& (0x00FF0000 : UInt64)) ||| (x >>> 40 &&& (0x0000FF00 : UInt64)) ||| (x >>> 56)

theorem swap16_bytes (x : UInt16) : leBytes 2 (swap16 x).toNat = (leBytes 2 x.toNat).reverse := by
  refine leBytes_eq_reverse fun i hi => ?_
  change (swap16 x).toBitVec.getLsbD i = x.toBitVec.getLsbD _
  unfold swap16
  interval_cases i <;> simp

theorem swap32_bytes (x : UInt32) : leBytes 4 (swap32 x).toNat = (leBytes 4 x.toNat).reverse := by
  refine leBytes_eq_reverse fun i hi => ?_
  change (swap32 x).toBitVec.getLsbD i = x.toBitVec.getLsbD _
  unfold swap32
  interval_cases i <;> simp

theorem swap64_bytes (x : UInt64) : leBytes 8 (swap64 x).toNat = (leBytes 8 x.toNat).reverse := by
  refine leBytes_eq_reverse fun i hi => ?_
  change (swap64 x).toBitVec.getLsbD i = x.toBitVec.getLsbD _
  unfold swap64
  interval_cases i <;> simp

/-- A number is given by its bytes. -/
theorem uint16_eq_of_leBytes {x y : UInt16} (h : leBytes 2 x.toNat = leBytes 2 y.toNat) :
    x = y := by
  have hnat := congrArg leNat h
  rw [leNat_leBytes x.toNat_lt, leNat_leBytes y.toNat_lt] at hnat
  exact UInt16.toNat_inj.mp hnat

theorem swap16_inj {x y : UInt16} : swap16 x = swap16 y ↔ x = y := by
  refine ⟨fun h => uint16_eq_of_leBytes ?_, congrArg swap16⟩
  have hrev : (leBytes 2 x.toNat).reverse = (leBytes 2 y.toNat).reverse := by
    rw [← swap16_bytes, ← swap16_bytes, h]
  exact List.reverse_inj.mp hrev

/-- The number of two bytes in the opposite order. -/
theorem swap16_ofNat {bs : List UInt8} (h : bs.length = 2) :
    UInt16.ofNat (ByteOrder.nat .big bs) = swap16 (UInt16.ofNat (ByteOrder.nat .little bs)) := by
  have hbytes : ∀ x : List UInt8, x.length = 2 → leBytes 2 (UInt16.ofNat (leNat x)).toNat = x := by
    intro x hx
    have hlt : leNat x < 256 ^ 2 := hx ▸ leNat_lt x
    rw [UInt16.toNat_ofNat', Nat.mod_eq_of_lt (by simpa using hlt), ← hx, leBytes_leNat]
  apply uint16_eq_of_leBytes
  rw [swap16_bytes, ByteOrder.nat, ByteOrder.nat, hbytes bs h, hbytes bs.reverse (by simpa using h)]

/-- The number that a swap of a width makes of a number. -/
def swapNumber (w n : Nat) : Nat :=
  if w = 2 then (swap16 (.ofNat n)).toNat
  else if w = 4 then (swap32 (.ofNat n)).toNat
  else if w = 8 then (swap64 (.ofNat n)).toNat
  else n

/-- A swap of the number of `w` bytes at an offset. -/
def swapAt (o : ByteOrder) (bs : List UInt8) (off w : Nat) : List UInt8 :=
  bs.take off ++ o.bytes w (swapNumber w (o.nat ((bs.drop off).take w))) ++ bs.drop (off + w)

theorem leBytes_swapNumber {w n : Nat} (hw : w = 2 ∨ w = 4 ∨ w = 8) (hn : n < 256 ^ w) :
    leBytes w (swapNumber w n) = (leBytes w n).reverse := by
  rcases hw with rfl | rfl | rfl
  · rw [swapNumber, if_pos rfl, swap16_bytes, UInt16.toNat_ofNat',
      Nat.mod_eq_of_lt (by simpa using hn)]
  · rw [swapNumber, if_neg (by decide), if_pos rfl, swap32_bytes, UInt32.toNat_ofNat',
      Nat.mod_eq_of_lt (by simpa using hn)]
  · rw [swapNumber, if_neg (by decide), if_neg (by decide), if_pos rfl, swap64_bytes,
      UInt64.toNat_ofNat',
      Nat.mod_eq_of_lt (by simpa using hn)]

/-- A swap within a buffer reverses the bytes. -/
theorem swapAt_eq_reverseAt (o : ByteOrder) {bs : List UInt8} {off w : Nat}
    (hw : w = 2 ∨ w = 4 ∨ w = 8)
    (h : off + w ≤ bs.length) : swapAt o bs off w = reverseAt bs off w := by
  have hlen : ((bs.drop off).take w).length = w := by simp; omega
  have hbytes : o.bytes w (swapNumber w (o.nat ((bs.drop off).take w))) =
      ((bs.drop off).take w).reverse := by
    generalize (bs.drop off).take w = x at hlen ⊢
    cases o with
    | little =>
      have hlt : leNat x < 256 ^ w := hlen ▸ leNat_lt x
      have hself : leBytes w (leNat x) = x := hlen ▸ leBytes_leNat x
      rw [ByteOrder.bytes, ByteOrder.nat, leBytes_swapNumber hw hlt, hself]
    | big =>
      have hrev : x.reverse.length = w := by simpa using hlen
      have hlt : leNat x.reverse < 256 ^ w := hrev ▸ leNat_lt x.reverse
      have hself : leBytes w (leNat x.reverse) = x.reverse := hrev ▸ leBytes_leNat x.reverse
      rw [ByteOrder.bytes, ByteOrder.nat, leBytes_swapNumber hw hlt, hself, List.reverse_reverse]
  rw [swapAt, reverseAt, hbytes]

/-- Swaps within a buffer, one after the other. -/
theorem foldl_swapAt (o : ByteOrder) {swaps : List (Nat × Nat)} {bs : List UInt8}
    (h : ∀ s ∈ swaps, (s.2 = 2 ∨ s.2 = 4 ∨ s.2 = 8) ∧ s.1 + s.2 ≤ bs.length) :
    swaps.foldl (fun bs s => swapAt o bs s.1 s.2) bs =
      swaps.foldl (fun bs s => reverseAt bs s.1 s.2) bs := by
  induction swaps generalizing bs with
  | nil => rfl
  | cons s swaps ih =>
    obtain ⟨hw, hin⟩ := h s (by simp)
    rw [List.foldl_cons, List.foldl_cons, swapAt_eq_reverseAt o hw hin]
    apply ih
    intro s' hs'
    rw [reverseAt_length hin]
    exact h s' (by simp [hs'])

end BmCore
