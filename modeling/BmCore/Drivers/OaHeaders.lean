import BmCore.Common.ByteSwap
import BmCore.Common.Util
import BmCore.Library.BitFields

/-!
# Headers of the serial interface

The words in front of and behind every chunk on the serial interface to the MAC
(`drivers/adin2111/adi_spi_oa.h`): unions of a 32-bit value and its bit fields, the first field in
the lowest bits. They travel in network byte order, and each carries a bit that makes the number of
its set bits odd.
-/
namespace BmCore.Drivers
open Library

/-! ## Words on the wire -/

/-- `mem32 = HTON32(value)` and `memcpy` of `mem32` -/
def hton32Bytes (value : UInt32) : List UInt8 := leBytes 4 (swap32 value).toNat

/-- `memcpy` into a word, then `HTON32` of it -/
def hton32Word (bs : List UInt8) : UInt32 := swap32 (UInt32.ofNat (leNat bs))

@[simp] theorem hton32Bytes_length (value : UInt32) : (hton32Bytes value).length = 4 := by
  simp [hton32Bytes]

theorem swap32_swap32 (x : UInt32) : swap32 (swap32 x) = x := by
  have hbytes : leBytes 4 (swap32 (swap32 x)).toNat = leBytes 4 x.toNat := by
    rw [swap32_bytes, swap32_bytes, List.reverse_reverse]
  have hnat := congrArg leNat hbytes
  rw [leNat_leBytes (swap32 _).toNat_lt, leNat_leBytes x.toNat_lt] at hnat
  exact UInt32.toNat_inj.mp hnat

/-- A word arrives as it was sent. -/
@[simp] theorem hton32Word_bytes (value : UInt32) : hton32Word (hton32Bytes value) = value := by
  rw [hton32Word, hton32Bytes, leNat_leBytes (swap32 _).toNat_lt, UInt32.ofNat_toNat, swap32_swap32]

/-! ## Parity -/

/-- `MAC_CalculateParity` -/
def calculateParity (p : List UInt8) : UInt8 :=
  let parity := p.foldl (· ^^^ ·) 0
  let prt := ((List.range 8).foldl
    (fun (s : UInt8 × UInt8) _ => (s.1 ^^^ (s.2 &&& 1), s.2 >>> 1)) (0, parity)).1
  prt &&& 1

/-- The second loop of `MAC_CalculateParity`, byte by byte. -/
private theorem calculateParity_byte (n : Fin 256) :
    (((List.range 8).foldl (fun (s : UInt8 × UInt8) _ => (s.1 ^^^ (s.2 &&& 1), s.2 >>> 1))
      (0, UInt8.ofNat n)).1 &&& 1).toNat = (parity 8 n).toNat := by
  revert n
  decide +kernel

theorem calculateParity_eq (p : List UInt8) :
    (calculateParity p).toNat = (parity (8 * p.length) (leNat p)).toNat := by
  have hfold : ∀ (p : List UInt8) (x : UInt8),
      parity 8 (p.foldl (· ^^^ ·) x).toNat =
        (parity 8 x.toNat ^^ parity (8 * p.length) (leNat p)) := by
    intro p
    induction p with
    | nil => intro x; simp [parity]
    | cons b p ih =>
      intro x
      have hlow : (b.toNat + 256 * leNat p) / 2 ^ 8 = leNat p := by
        have := b.toNat_lt
        omega
      have hbyte : parity 8 (b.toNat + 256 * leNat p) = parity 8 b.toNat := by
        rw [← parity_mod]
        congr 1
        have := b.toNat_lt
        omega
      rw [List.foldl_cons, ih, UInt8.toNat_xor, parity_xor, List.length_cons, leNat,
        show 8 * (p.length + 1) = 8 + 8 * p.length by ring, parity_add, hbyte, hlow, Bool.xor_assoc]
  have hx := (p.foldl (· ^^^ ·) 0).toNat_lt
  have hbyte := calculateParity_byte ⟨(p.foldl (· ^^^ ·) 0).toNat, hx⟩
  rw [UInt8.ofNat_toNat] at hbyte
  rw [calculateParity, hbyte, hfold]
  simp

/-- The parity of a word is that of its bytes. -/
theorem calculateParity_word (value : UInt32) :
    (calculateParity (leBytes 4 value.toNat)).toNat = (parity 32 value.toNat).toNat := by
  rw [calculateParity_eq, leBytes_length, leNat_leBytes value.toNat_lt]

/-- The check that `adi_spi_oa.c` makes of a word: `MAC_CalculateParity` is not 0. -/
def parityOk (value : UInt32) : Bool := calculateParity (leBytes 4 value.toNat) ≠ 0

theorem parityOk_eq (value : UInt32) : parityOk value = parity 32 value.toNat := by
  have hword := calculateParity_word value
  cases hp : parity 32 value.toNat with
  | false =>
    have hzero : calculateParity (leBytes 4 value.toNat) = 0 := by
      apply UInt8.toNat_inj.mp
      rw [hword, hp]
      rfl
    simp [parityOk, hzero]
  | true =>
    have hone : calculateParity (leBytes 4 value.toNat) = 1 := by
      apply UInt8.toNat_inj.mp
      rw [hword, hp]
      rfl
    simp [parityOk, hone]

/-- The check of a word with the lowest bit `p`. -/
theorem parityOk_add {rest : Nat} (hrest : rest < 2 ^ 31) (p : Bool) :
    parityOk (UInt32.ofNat (p.toNat + 2 * rest)) = (p ^^ parity 31 rest) := by
  have hp : p.toNat < 2 := Bool.toNat_lt p
  have hlow : (p.toNat + 2 * rest).testBit 0 = p := by cases p <;> simp
  rw [parityOk_eq, UInt32.toNat_ofNat_of_lt' (by rw [UInt32.size]; omega), parity,
    show (p.toNat + 2 * rest) / 2 = rest by omega, hlow]

/-- `P` is set to 1 for the calculation, and then to what it gives. -/
theorem parityOk_calculated {rest : Nat} (hrest : rest < 2 ^ 31) :
    parityOk (UInt32.ofNat
      ((parityOk (UInt32.ofNat (true.toNat + 2 * rest))).toNat + 2 * rest)) = true := by
  rw [parityOk_add hrest, parityOk_add hrest]
  cases parity 31 rest <;> rfl

/-- One bit that arrives wrong is noticed. -/
theorem parityOk_flip {value : UInt32} (h : parityOk value = true) {i : Nat} (hi : i < 32) :
    parityOk (UInt32.ofNat (value.toNat ^^^ 2 ^ i)) = false := by
  have hlt : value.toNat ^^^ 2 ^ i < 2 ^ 32 :=
    Nat.xor_lt_two_pow value.toNat_lt (Nat.pow_lt_pow_right (by decide) hi)
  rw [parityOk_eq] at h ⊢
  rw [UInt32.toNat_ofNat_of_lt' (by rw [UInt32.size]; omega), parity_flip hi, h]
  rfl

/-! ## Unions of a word and its fields -/

section Packed
variable {value : UInt32} {ws vs : List Nat} {i w v : Nat} {b : Bool}

/-- A field of the word reads the value that was stored in it. -/
theorem bitField_word (hword : value.toNat = packBits ws vs) (hw : ws[i]? = some w)
    (hv : vs[i]? = some v) (hlt : v < 2 ^ w) : bitField value.toNat (ws.take i).sum w = v := by
  rw [hword, bitField_packBits i hw hv, Nat.mod_eq_of_lt hlt]

/-- A flag of the word reads the value that was stored in it. -/
theorem testBit_word (hword : value.toNat = packBits ws vs) (hw : ws[i]? = some 1)
    (hv : vs[i]? = some b.toNat) : value.toNat.testBit (ws.take i).sum = b := by
  rw [hword, testBit_packBits i hw hv]

end Packed

/-! ## `adi_mac_OaTxHeader_t` -/

/-- `adi_mac_OaTxHeader_t` -/
@[ext] structure OaTxHeader where
  p : Bool := false
  rsvd0 : Nat := 0
  tmsc : Nat := 0
  ebo : Nat := 0
  ev : Bool := false
  rsvd1 : Bool := false
  swo : Nat := 0
  sv : Bool := false
  dv : Bool := false
  vs : Nat := 0
  rsvd2 : Nat := 0
  norx : Bool := false
  seq : Bool := false
  dnc : Bool := false
  deriving DecidableEq, Repr

namespace OaTxHeader

/-- The widths of the fields behind `P`. -/
def widths : List Nat := [5, 2, 6, 1, 1, 4, 1, 1, 2, 5, 1, 1, 1]

/-- The fields behind `P`. -/
def fields (h : OaTxHeader) : List Nat :=
  [h.rsvd0, h.tmsc, h.ebo, h.ev.toNat, h.rsvd1.toNat, h.swo, h.sv.toNat, h.dv.toNat, h.vs, h.rsvd2,
    h.norx.toNat, h.seq.toNat, h.dnc.toNat]

/-- `VALUE32` -/
def value32 (h : OaTxHeader) : UInt32 :=
  UInt32.ofNat (packBits (1 :: widths) (h.p.toNat :: h.fields))

/-- The fields of a `VALUE32`. -/
def ofValue32 (value : UInt32) : OaTxHeader :=
  let v := value.toNat
  { p := v.testBit 0, rsvd0 := bitField v 1 5, tmsc := bitField v 6 2, ebo := bitField v 8 6
    ev := v.testBit 14, rsvd1 := v.testBit 15, swo := bitField v 16 4, sv := v.testBit 20
    dv := v.testBit 21, vs := bitField v 22 2, rsvd2 := bitField v 24 5, norx := v.testBit 29
    seq := v.testBit 30, dnc := v.testBit 31 }

/-- Every value fits into its field. -/
def Fits (h : OaTxHeader) : Prop :=
  h.rsvd0 < 2 ^ 5 ∧ h.tmsc < 2 ^ 2 ∧ h.ebo < 2 ^ 6 ∧ h.swo < 2 ^ 4 ∧ h.vs < 2 ^ 2 ∧ h.rsvd2 < 2 ^ 5

theorem value32_toNat (h : OaTxHeader) :
    h.value32.toNat = packBits (1 :: widths) (h.p.toNat :: h.fields) :=
  UInt32.toNat_ofNat_of_lt' (packBits_lt _ _)

/-- The fields of a header are read back from its value. -/
theorem ofValue32_value32 {h : OaTxHeader} (hfits : h.Fits) : ofValue32 h.value32 = h := by
  obtain ⟨hrsvd0, htmsc, hebo, hswo, hvs, hrsvd2⟩ := hfits
  have hword := value32_toNat h
  apply OaTxHeader.ext
  · exact testBit_word (i := 0) hword rfl rfl
  · exact bitField_word (i := 1) hword rfl rfl hrsvd0
  · exact bitField_word (i := 2) hword rfl rfl htmsc
  · exact bitField_word (i := 3) hword rfl rfl hebo
  · exact testBit_word (i := 4) hword rfl rfl
  · exact testBit_word (i := 5) hword rfl rfl
  · exact bitField_word (i := 6) hword rfl rfl hswo
  · exact testBit_word (i := 7) hword rfl rfl
  · exact testBit_word (i := 8) hword rfl rfl
  · exact bitField_word (i := 9) hword rfl rfl hvs
  · exact bitField_word (i := 10) hword rfl rfl hrsvd2
  · exact testBit_word (i := 11) hword rfl rfl
  · exact testBit_word (i := 12) hword rfl rfl
  · exact testBit_word (i := 13) hword rfl rfl

/-- `P = 1`, then `P = MAC_CalculateParity` of the value -/
def setParity (h : OaTxHeader) : OaTxHeader :=
  { h with p := parityOk { h with p := true }.value32 }

/-- `IRQ_START`: `P = 1`, then `P` is changed by every other bit of the value. -/
def setParityBitwise (h : OaTxHeader) : OaTxHeader :=
  let val32 := OaTxHeader.value32 { h with p := true } >>> (1 : UInt32)
  { h with p := ((List.range 31).foldl
      (fun (s : Bool × UInt32) _ => (s.1 ^^ (s.2 &&& 1 ≠ 0), s.2 >>> 1)) (true, val32)).1 }

/-- The value of a header with a parity bit. -/
theorem value32_eq (h : OaTxHeader) (p : Bool) :
    value32 { h with p } = UInt32.ofNat (p.toNat + 2 * packBits widths h.fields) := by
  have hp : p.toNat % 2 = p.toNat := by cases p <;> rfl
  rw [value32, packBits, pow_one, hp]
  rfl

/-- A header with its parity bit set passes the check. -/
theorem parityOk_setParity (h : OaTxHeader) : parityOk h.setParity.value32 = true := by
  rw [setParity, value32_eq, value32_eq]
  exact parityOk_calculated (packBits_lt widths h.fields)

/-- The loop that shifts a word out changes `P` by the parity of what has been shifted out. -/
theorem shiftOut_eq (k : Nat) (p : Bool) (v : UInt32) : (List.range k).foldl
    (fun (s : Bool × UInt32) _ => (s.1 ^^ (s.2 &&& 1 ≠ 0), s.2 >>> 1)) (p, v) =
      (p ^^ parity k v.toNat, UInt32.ofNat (v.toNat / 2 ^ k)) := by
  have hbit (x : UInt32) : decide (x &&& 1 ≠ 0) = x.toNat.testBit 0 := by
    have hiff : x &&& 1 = 0 ↔ x.toNat % 2 = 0 := by
      rw [← UInt32.toNat_inj, UInt32.toNat_and]
      simp [Nat.and_one_is_mod]
    simp [hiff, Nat.testBit_zero]
  induction k with
  | zero => simp [parity]
  | succ k ih =>
    have hk : v.toNat / 2 ^ k < 2 ^ 32 := (Nat.div_le_self _ _).trans_lt v.toNat_lt
    rw [List.range_succ, List.foldl_append, ih, parity_add, List.foldl_cons, List.foldl_nil,
      hbit, UInt32.toNat_ofNat_of_lt' hk]
    refine Prod.ext (by simp [parity]) (UInt32.toNat_inj.mp ?_)
    rw [UInt32.toNat_shiftRight, UInt32.toNat_ofNat_of_lt' hk, UInt32.toNat_ofNat_of_lt'
      ((Nat.div_le_self _ _).trans_lt v.toNat_lt), pow_succ, ← Nat.div_div_eq_div_mul]
    rfl

/-- The interrupt's loop and `MAC_CalculateParity` agree. -/
theorem setParityBitwise_eq (h : OaTxHeader) : h.setParityBitwise = h.setParity := by
  have hrest : packBits widths h.fields < 2 ^ 31 := packBits_lt widths h.fields
  have hshift : (value32 { h with p := true } >>> (1 : UInt32)).toNat =
      packBits widths h.fields := by
    rw [value32_eq, UInt32.toNat_shiftRight, UInt32.toNat_ofNat_of_lt'
      (by rw [UInt32.size, Bool.toNat_true]; omega), Bool.toNat_true]
    change (1 + 2 * packBits widths h.fields) >>> 1 = _
    rw [Nat.shiftRight_one]
    omega
  rw [setParityBitwise, setParity, shiftOut_eq, hshift, value32_eq, parityOk_add hrest]

end OaTxHeader

/-! ## `adi_mac_OaRxFooter_t` -/

/-- `adi_mac_OaRxFooter_t` -/
@[ext] structure OaRxFooter where
  p : Bool := false
  txc : Nat := 0
  rtsp : Bool := false
  rtsa : Bool := false
  ebo : Nat := 0
  ev : Bool := false
  fd : Bool := false
  swo : Nat := 0
  sv : Bool := false
  dv : Bool := false
  vs : Nat := 0
  rca : Nat := 0
  sync : Bool := false
  hdrb : Bool := false
  exst : Bool := false
  deriving DecidableEq, Repr

namespace OaRxFooter

/-- The widths of the fields behind `P`. -/
def widths : List Nat := [5, 1, 1, 6, 1, 1, 4, 1, 1, 2, 5, 1, 1, 1]

/-- The fields behind `P`. -/
def fields (f : OaRxFooter) : List Nat :=
  [f.txc, f.rtsp.toNat, f.rtsa.toNat, f.ebo, f.ev.toNat, f.fd.toNat, f.swo, f.sv.toNat, f.dv.toNat,
    f.vs, f.rca, f.sync.toNat, f.hdrb.toNat, f.exst.toNat]

/-- `VALUE32` -/
def value32 (f : OaRxFooter) : UInt32 :=
  UInt32.ofNat (packBits (1 :: widths) (f.p.toNat :: f.fields))

/-- The fields of a `VALUE32`. -/
def ofValue32 (value : UInt32) : OaRxFooter :=
  let v := value.toNat
  { p := v.testBit 0, txc := bitField v 1 5, rtsp := v.testBit 6, rtsa := v.testBit 7
    ebo := bitField v 8 6, ev := v.testBit 14, fd := v.testBit 15, swo := bitField v 16 4
    sv := v.testBit 20, dv := v.testBit 21, vs := bitField v 22 2, rca := bitField v 24 5
    sync := v.testBit 29, hdrb := v.testBit 30, exst := v.testBit 31 }

/-- Every value fits into its field. -/
def Fits (f : OaRxFooter) : Prop :=
  f.txc < 2 ^ 5 ∧ f.ebo < 2 ^ 6 ∧ f.swo < 2 ^ 4 ∧ f.vs < 2 ^ 2 ∧ f.rca < 2 ^ 5

theorem value32_toNat (f : OaRxFooter) :
    f.value32.toNat = packBits (1 :: widths) (f.p.toNat :: f.fields) :=
  UInt32.toNat_ofNat_of_lt' (packBits_lt _ _)

/-- Whatever the word, the values that are read fit into the fields. -/
theorem fits_ofValue32 (value : UInt32) : (ofValue32 value).Fits :=
  ⟨bitField_lt _ _ _, bitField_lt _ _ _, bitField_lt _ _ _, bitField_lt _ _ _, bitField_lt _ _ _⟩

/-- The fields of a footer are read back from its value. -/
theorem ofValue32_value32 {f : OaRxFooter} (hfits : f.Fits) : ofValue32 f.value32 = f := by
  obtain ⟨htxc, hebo, hswo, hvs, hrca⟩ := hfits
  have hword := value32_toNat f
  apply OaRxFooter.ext
  · exact testBit_word (i := 0) hword rfl rfl
  · exact bitField_word (i := 1) hword rfl rfl htxc
  · exact testBit_word (i := 2) hword rfl rfl
  · exact testBit_word (i := 3) hword rfl rfl
  · exact bitField_word (i := 4) hword rfl rfl hebo
  · exact testBit_word (i := 5) hword rfl rfl
  · exact testBit_word (i := 6) hword rfl rfl
  · exact bitField_word (i := 7) hword rfl rfl hswo
  · exact testBit_word (i := 8) hword rfl rfl
  · exact testBit_word (i := 9) hword rfl rfl
  · exact bitField_word (i := 10) hword rfl rfl hvs
  · exact bitField_word (i := 11) hword rfl rfl hrca
  · exact testBit_word (i := 12) hword rfl rfl
  · exact testBit_word (i := 13) hword rfl rfl
  · exact testBit_word (i := 14) hword rfl rfl

end OaRxFooter

/-! ## `adi_mac_OaCtrlCmdHeader_t` -/

/-- `adi_mac_OaCtrlCmdHeader_t` -/
@[ext] structure OaCtrlCmdHeader where
  p : Bool
  len : Nat
  addr : Nat
  mms : Nat
  aid : Bool
  wnr : Bool
  hdrb : Bool
  dnc : Bool
  deriving DecidableEq, Repr

namespace OaCtrlCmdHeader

/-- The widths of the fields behind `P`. -/
def widths : List Nat := [7, 16, 4, 1, 1, 1, 1]

/-- The fields behind `P`. -/
def fields (h : OaCtrlCmdHeader) : List Nat :=
  [h.len, h.addr, h.mms, h.aid.toNat, h.wnr.toNat, h.hdrb.toNat, h.dnc.toNat]

/-- `VALUE32` -/
def value32 (h : OaCtrlCmdHeader) : UInt32 :=
  UInt32.ofNat (packBits (1 :: widths) (h.p.toNat :: h.fields))

/-- The fields of a `VALUE32`. -/
def ofValue32 (value : UInt32) : OaCtrlCmdHeader :=
  let v := value.toNat
  { p := v.testBit 0, len := bitField v 1 7, addr := bitField v 8 16, mms := bitField v 24 4
    aid := v.testBit 28, wnr := v.testBit 29, hdrb := v.testBit 30, dnc := v.testBit 31 }

theorem value32_toNat (h : OaCtrlCmdHeader) :
    h.value32.toNat = packBits (1 :: widths) (h.p.toNat :: h.fields) :=
  UInt32.toNat_ofNat_of_lt' (packBits_lt _ _)

/-- The fields of a header are read back from its value. -/
theorem ofValue32_value32 {h : OaCtrlCmdHeader} (hlen : h.len < 2 ^ 7) (haddr : h.addr < 2 ^ 16)
    (hmms : h.mms < 2 ^ 4) : ofValue32 h.value32 = h := by
  have hword := value32_toNat h
  apply OaCtrlCmdHeader.ext
  · exact testBit_word (i := 0) hword rfl rfl
  · exact bitField_word (i := 1) hword rfl rfl hlen
  · exact bitField_word (i := 2) hword rfl rfl haddr
  · exact bitField_word (i := 3) hword rfl rfl hmms
  · exact testBit_word (i := 4) hword rfl rfl
  · exact testBit_word (i := 5) hword rfl rfl
  · exact testBit_word (i := 6) hword rfl rfl
  · exact testBit_word (i := 7) hword rfl rfl

/-- `P = 1`, then `P = MAC_CalculateParity` of the value -/
def setParity (h : OaCtrlCmdHeader) : OaCtrlCmdHeader :=
  { h with p := parityOk { h with p := true }.value32 }

/-- The value of a header with a parity bit. -/
theorem value32_eq (h : OaCtrlCmdHeader) (p : Bool) :
    value32 { h with p } = UInt32.ofNat (p.toNat + 2 * packBits widths h.fields) := by
  have hp : p.toNat % 2 = p.toNat := by cases p <;> rfl
  rw [value32, packBits, pow_one, hp]
  rfl

/-- A header with its parity bit set passes the check. -/
theorem parityOk_setParity (h : OaCtrlCmdHeader) : parityOk h.setParity.value32 = true := by
  rw [setParity, value32_eq, value32_eq]
  exact parityOk_calculated (packBits_lt widths h.fields)

end OaCtrlCmdHeader

end BmCore.Drivers
