import BmCore.Library.CString
import BmCore.Library.Cbor

/-!
# TinyCBOR

The functions of TinyCBOR that the configuration calls, as parameters. An iterator that
`cbor_parser_init` has set up is at the start of its buffer, so that the functions on an iterator
are given the bytes of the buffer.

What the configuration relies on is stated in `Inverse`, `HeaderLocal`, `HeaderFirst`,
`ReadsStrings` and `ReadsHeads`. `tinyCbor` encodes and parses single items as RFC 8949 has them.
-/
namespace BmCore.Configuration
open Library Cbor

/-- `MAX_CONFIG_BUFFER_SIZE_BYTES` -/
def maxConfigBufferSizeBytes : Nat := 50

/-- `ConfigValue` -/
abbrev ConfigValue := Buffer maxConfigBufferSizeBytes

/-- What the setters encode; a `float` is given by its bits. -/
inductive CborItem where
  | uint (value : UInt32)
  | int (value : Int32)
  | float (value : UInt32)
  | text (value : List UInt8)
  | bytes (value : List UInt8)

/-- The types of an iterator that the configuration tells apart. -/
inductive CborType where
  | unsignedInteger
  | negativeInteger
  | byteString
  | textString
  | array
  | float
  | other
  | invalid
  deriving DecidableEq

/-- The header of an item, and its body. -/
def CborItem.encoding : CborItem → List UInt8 × List UInt8
  | .uint value => (encodeHead 0 value.toNat, [])
  | .int value =>
    if 0 ≤ value.toInt then (encodeHead 0 value.toInt.toNat, [])
    else (encodeHead 1 (-1 - value.toInt).toNat, [])
  | .float value => (0xFA :: beBytes 4 value.toNat, [])
  | .text value => (encodeHead 3 (value.length % 2 ^ 64), value)
  | .bytes value => (encodeHead 2 (value.length % 2 ^ 64), value)

/-- Writes a header, and a body behind it if it fits. -/
def writeItem {n : Nat} (buf : Buffer n) (head body : List UInt8) : Buffer n × Bool :=
  if head.length + body.length ≤ n then (buf.put (head ++ body), true)
  else if head.length ≤ n then (buf.put head, false)
  else (buf, false)

/-! ## The functions -/

structure TinyCbor where
  /-- An encoder on the buffer: the buffer afterwards, and if there was no error. -/
  encode : CborItem → {n : Nat} → Buffer n → Buffer n × Bool
  /-- `cbor_parser_init` finds no error. -/
  parserInit : List UInt8 → Bool
  type : List UInt8 → CborType
  getUint64 : List UInt8 → Option UInt64
  getInt64 : List UInt8 → Option Int64
  getFloat : List UInt8 → Option UInt32
  /-- The string that is copied into a buffer of some size. -/
  copyTextString : List UInt8 → Nat → Option (List UInt8)
  copyByteString : List UInt8 → Nat → Option (List UInt8)
  getStringLength : List UInt8 → Option Nat
  getArrayLength : List UInt8 → Option Nat

namespace TinyCbor
variable (cbor : TinyCbor)

def isInteger (b : List UInt8) : Bool :=
  cbor.type b == .unsignedInteger || cbor.type b == .negativeInteger

/-- Parsing is the inverse of encoding. -/
structure Inverse : Prop where
  init : ∀ item (buf : ConfigValue), (cbor.encode item buf).2 = true →
    cbor.parserInit (cbor.encode item buf).1.bytes = true ∧
      cbor.type (cbor.encode item buf).1.bytes ≠ .invalid
  uint : ∀ value (buf : ConfigValue), (cbor.encode (.uint value) buf).2 = true →
    cbor.type (cbor.encode (.uint value) buf).1.bytes = .unsignedInteger ∧
      cbor.getUint64 (cbor.encode (.uint value) buf).1.bytes = some value.toUInt64
  int : ∀ value (buf : ConfigValue), (cbor.encode (.int value) buf).2 = true →
    cbor.isInteger (cbor.encode (.int value) buf).1.bytes = true ∧
      cbor.getInt64 (cbor.encode (.int value) buf).1.bytes = some value.toInt64
  float : ∀ value (buf : ConfigValue), (cbor.encode (.float value) buf).2 = true →
    cbor.type (cbor.encode (.float value) buf).1.bytes = .float ∧
      cbor.getFloat (cbor.encode (.float value) buf).1.bytes = some value
  text : ∀ value (buf : ConfigValue), (cbor.encode (.text value) buf).2 = true →
    cbor.type (cbor.encode (.text value) buf).1.bytes = .textString ∧ ∀ size, value.length ≤ size →
      cbor.copyTextString (cbor.encode (.text value) buf).1.bytes size = some value
  bytes : ∀ value (buf : ConfigValue), (cbor.encode (.bytes value) buf).2 = true →
    cbor.type (cbor.encode (.bytes value) buf).1.bytes = .byteString ∧ ∀ size, value.length ≤ size →
      cbor.copyByteString (cbor.encode (.bytes value) buf).1.bytes size = some value
  /-- An unsigned integer fits. -/
  fits : ∀ value (buf : ConfigValue), (cbor.encode (.uint value) buf).2 = true

/-- `cbor_parser_init` and what it is asked afterwards look at the header of the item only. -/
structure HeaderLocal : Prop where
  init : ∀ b r, cbor.parserInit b = true → cbor.parserInit (b ++ r) = true
  type : ∀ b r, cbor.parserInit b = true → cbor.type (b ++ r) = cbor.type b
  getUint64 : ∀ b r, cbor.parserInit b = true → cbor.type b = .unsignedInteger →
    cbor.getUint64 (b ++ r) = cbor.getUint64 b
  getInt64 : ∀ b r, cbor.parserInit b = true → cbor.isInteger b = true →
    cbor.getInt64 (b ++ r) = cbor.getInt64 b
  getFloat : ∀ b r, cbor.parserInit b = true → cbor.type b = .float →
    cbor.getFloat (b ++ r) = cbor.getFloat b
  getStringLength : ∀ b r, cbor.parserInit b = true →
    cbor.type b = .textString ∨ cbor.type b = .byteString →
      cbor.getStringLength (b ++ r) = cbor.getStringLength b
  getArrayLength : ∀ b r, cbor.parserInit b = true → cbor.type b = .array →
    cbor.getArrayLength (b ++ r) = cbor.getArrayLength b

/-- An item is encoded header first, and a body that does not fit is left out. A header is enough
for `cbor_parser_init`. -/
structure HeaderFirst : Prop where
  encode : ∀ item (buf : ConfigValue),
    cbor.encode item buf = writeItem buf item.encoding.1 item.encoding.2
  init : ∀ item r, cbor.parserInit ((CborItem.encoding item).1 ++ r) = true
  type : ∀ item r, cbor.type ((CborItem.encoding item).1 ++ r) ≠ .invalid

/-- Strings are read as RFC 8949 has them, chunk by chunk if their length is indefinite. -/
structure ReadsStrings : Prop where
  text : ∀ b, cbor.parserInit b = true → cbor.type b = .textString →
    (∃ h, head? b = some h ∧ h.major = 3) ∧
      ∀ size, cbor.copyTextString b size = (string? b).filter (·.length ≤ size)
  bytes : ∀ b, cbor.parserInit b = true → cbor.type b = .byteString →
    (∃ h, head? b = some h ∧ h.major = 2) ∧
      ∀ size, cbor.copyByteString b size = (string? b).filter (·.length ≤ size)

/-- The type of an item is that of its head, and numbers are read as RFC 8949 has them. An integer
that does not fit is cut to its low bits. -/
structure ReadsHeads : Prop where
  unsigned : ∀ b, cbor.parserInit b = true → cbor.type b = .unsignedInteger →
    ∃ arg size, head? b = some ⟨0, some arg, size⟩ ∧ cbor.getUint64 b = some (.ofNat arg)
  negative : ∀ b, cbor.parserInit b = true → cbor.type b = .negativeInteger →
    ∃ arg size, head? b = some ⟨1, some arg, size⟩ ∧ cbor.getInt64 b = some (.ofInt (-1 - arg))
  float : ∀ b, cbor.parserInit b = true → cbor.type b = .float →
    ∃ bits, head? b = some ⟨7, some bits, 5⟩ ∧ cbor.getFloat b = some (.ofNat bits)
  array : ∀ b, cbor.parserInit b = true → cbor.type b = .array → ∃ h, head? b = some h ∧ h.major = 4

end TinyCbor

/-! ## Single items of RFC 8949 -/

def headType : Head → CborType
  | ⟨0, _, _⟩ => .unsignedInteger
  | ⟨1, _, _⟩ => .negativeInteger
  | ⟨2, _, _⟩ => .byteString
  | ⟨3, _, _⟩ => .textString
  | ⟨4, _, _⟩ => .array
  | ⟨7, _, 5⟩ => .float
  | _ => .other

/-- Only strings, arrays and maps have an indefinite length, and the simple values below 32 have
no byte of their own. -/
def headOk : Head → Bool
  | ⟨m, none, _⟩ => 2 ≤ m && m ≤ 5
  | ⟨7, some arg, 2⟩ => 32 ≤ arg
  | _ => true

def tinyCbor : TinyCbor where
  encode item _ buf := writeItem buf item.encoding.1 item.encoding.2
  parserInit b := (head? b).any headOk
  type b := ((head? b).map headType).getD .invalid
  getUint64 b := (head? b).bind fun h => h.arg.map UInt64.ofNat
  getInt64 b := (head? b).bind fun h => h.arg.map fun (arg : Nat) =>
    .ofInt (if h.major = 0 then (arg : Int) else -1 - (arg : Int))
  getFloat b := (head? b).bind fun h => h.arg.map UInt32.ofNat
  copyTextString b size := (string? b).filter (·.length ≤ size)
  copyByteString b size := (string? b).filter (·.length ≤ size)
  getStringLength b := (head? b).bind Head.arg
  getArrayLength b := (head? b).bind Head.arg

section Laws
variable {head body : List UInt8}

/-- What a successful encoder leaves in a slot. -/
theorem writeItem_ok {buf : ConfigValue} (h : (writeItem buf head body).2 = true) :
    (writeItem buf head body).1.bytes = head ++ body ++ buf.bytes.drop (head ++ body).length := by
  unfold writeItem at h ⊢
  split at h
  · rename_i hle
    rw [if_pos hle]
    exact buf.put_bytes (by rw [List.length_append]; exact hle)
  · split at h <;> simp at h

theorem writeItem_overrun {buf : ConfigValue} (hhead : head.length ≤ 9)
    (h : (writeItem buf head body).2 = false) :
    body ≠ [] ∧ (writeItem buf head body).1.bytes = head ++ buf.bytes.drop head.length := by
  have hfits : head.length ≤ maxConfigBufferSizeBytes := by
    simp only [maxConfigBufferSizeBytes]
    omega
  unfold writeItem at h ⊢
  split at h
  · simp at h
  · rename_i hle
    rw [if_neg hle, if_pos hfits]
    refine ⟨?_, buf.put_bytes hfits⟩
    rintro rfl
    exact hle (by simpa using hfits)

/-- The major type and the argument of an item. -/
def CborItem.argument : CborItem → Nat × Nat
  | .uint value => (0, value.toNat)
  | .int value => if 0 ≤ value.toInt then (0, value.toInt.toNat) else (1, (-1 - value.toInt).toNat)
  | .float value => (7, value.toNat)
  | .text value => (3, value.length % 2 ^ 64)
  | .bytes value => (2, value.length % 2 ^ 64)

theorem head?_encoding (item : CborItem) (r : List UInt8) : head? (item.encoding.1 ++ r) =
    some ⟨item.argument.1, some item.argument.2, item.encoding.1.length⟩ := by
  cases item with
  | uint value =>
    have hlt := value.toNat_lt
    simp only [CborItem.encoding, CborItem.argument]
    exact head?_encodeHead (by omega) (by omega) r
  | int value =>
    have hlow := value.le_toInt
    have hhigh := value.toInt_lt
    simp only [CborItem.encoding, CborItem.argument]
    split
    · exact head?_encodeHead (by omega) (by omega) r
    · exact head?_encodeHead (by omega) (by omega) r
  | float value =>
    have hlt : value.toNat < 256 ^ 4 := lt_of_lt_of_le value.toNat_lt (by norm_num)
    have hhead : head? (.ofNat (32 * 7 + 26) :: beBytes 4 value.toNat ++ r) =
      some ⟨7, some value.toNat, 1 + 4⟩ := head?_beBytes (by omega) rfl (by omega) (by omega) hlt r
    exact hhead
  | text value =>
    simp only [CborItem.encoding, CborItem.argument]
    exact head?_encodeHead (by omega) (by omega) r
  | bytes value =>
    simp only [CborItem.encoding, CborItem.argument]
    exact head?_encodeHead (by omega) (by omega) r

theorem encoding_length_le (item : CborItem) : item.encoding.1.length ≤ 9 := by
  cases item with
  | int value =>
    simp only [CborItem.encoding]
    split <;> exact encodeHead_length_le
  | float value => simp [CborItem.encoding, beBytes]
  | uint value => exact encodeHead_length_le
  | text value => exact encodeHead_length_le
  | bytes value => exact encodeHead_length_le

/-- The head of what an encoder leaves in a slot, if there is an error or not. -/
theorem head?_encode (item : CborItem) (buf : ConfigValue) :
    head? (tinyCbor.encode item buf).1.bytes =
      some ⟨item.argument.1, some item.argument.2, item.encoding.1.length⟩ := by
  cases hok : (writeItem buf item.encoding.1 item.encoding.2).2 with
  | true => rw [tinyCbor, writeItem_ok hok, List.append_assoc, head?_encoding]
  | false => rw [tinyCbor, (writeItem_overrun (encoding_length_le item) hok).2, head?_encoding]

/-- A string that fits is read back. -/
theorem string?_encode_slot {item : CborItem} {value : List UInt8} {buf : ConfigValue}
    (hitem : item = .text value ∨ item = .bytes value)
    (hok : (tinyCbor.encode item buf).2 = true) :
    string? (tinyCbor.encode item buf).1.bytes = some value := by
  have hbytes := writeItem_ok hok
  have hfits : value.length ≤ maxConfigBufferSizeBytes := by
    unfold tinyCbor writeItem at hok
    dsimp only at hok
    split at hok
    · rcases hitem with rfl | rfl <;> simp only [CborItem.encoding] at * <;> omega
    · split at hok <;> simp at hok
  have hsmall : value.length < 2 ^ 64 := by
    simp only [maxConfigBufferSizeBytes] at hfits
    omega
  rw [tinyCbor, hbytes]
  rcases hitem with rfl | rfl <;>
    simp only [CborItem.encoding, Nat.mod_eq_of_lt hsmall] <;>
    exact string?_encode (by omega) hsmall _

theorem headOk_encoding (item : CborItem) :
    headOk ⟨item.argument.1, some item.argument.2, item.encoding.1.length⟩ = true := by
  cases item with
  | int value =>
    simp only [CborItem.argument]
    split <;> rfl
  | float value => simp [CborItem.argument, CborItem.encoding, beBytes, headOk]
  | uint value => rfl
  | text value => rfl
  | bytes value => rfl

theorem headType_encoding (item : CborItem) :
    headType ⟨item.argument.1, some item.argument.2, item.encoding.1.length⟩ ≠ .invalid := by
  unfold headType
  split <;> simp

theorem tinyCbor_inverse : tinyCbor.Inverse where
  init item buf _ := by
    have hhead := head?_encode item buf
    generalize (tinyCbor.encode item buf).1.bytes = b at hhead
    simp only [tinyCbor, hhead]
    exact ⟨headOk_encoding item, headType_encoding item⟩
  uint value buf _ := by
    have hhead := head?_encode (.uint value) buf
    generalize (tinyCbor.encode (.uint value) buf).1.bytes = b at hhead
    simp only [tinyCbor, hhead, CborItem.argument]
    refine ⟨rfl, ?_⟩
    simp
  int value buf _ := by
    have hhead := head?_encode (.int value) buf
    generalize (tinyCbor.encode (.int value) buf).1.bytes = b at hhead
    have hlow := value.le_toInt
    have hhigh := value.toInt_lt
    simp only [tinyCbor, TinyCbor.isInteger, hhead, CborItem.argument]
    split
    · refine ⟨rfl, ?_⟩
      simp only [Option.bind_some, Option.map_some, if_true, Option.some.injEq]
      apply Int64.toInt_inj.mp
      rw [Int64.toInt_ofInt_of_le (by omega) (by omega), Int32.toInt_toInt64]
      omega
    · refine ⟨rfl, ?_⟩
      simp only [Option.bind_some, Option.map_some, Option.some.injEq]
      apply Int64.toInt_inj.mp
      rw [if_neg (by omega), Int64.toInt_ofInt_of_le (by omega) (by omega), Int32.toInt_toInt64]
      omega
  float value buf _ := by
    have hhead := head?_encode (.float value) buf
    generalize (tinyCbor.encode (.float value) buf).1.bytes = b at hhead
    simp only [tinyCbor, hhead, CborItem.argument]
    refine ⟨rfl, ?_⟩
    simp
  text value buf hok := by
    have hhead := head?_encode (.text value) buf
    have hstring := string?_encode_slot (.inl rfl) hok
    generalize (tinyCbor.encode (.text value) buf).1.bytes = b at hhead hstring
    simp only [tinyCbor, hhead, hstring, CborItem.argument]
    refine ⟨rfl, fun size hsize => ?_⟩
    simp [Option.filter, hsize]
  bytes value buf hok := by
    have hhead := head?_encode (.bytes value) buf
    have hstring := string?_encode_slot (.inr rfl) hok
    generalize (tinyCbor.encode (.bytes value) buf).1.bytes = b at hhead hstring
    simp only [tinyCbor, hhead, hstring, CborItem.argument]
    refine ⟨rfl, fun size hsize => ?_⟩
    simp [Option.filter, hsize]
  fits value buf := by
    have hle := encoding_length_le (.uint value)
    simp only [tinyCbor, writeItem]
    rw [if_pos]
    simp only [maxConfigBufferSizeBytes, CborItem.encoding, List.length_nil] at hle ⊢
    omega

theorem tinyCbor_headerLocal : tinyCbor.HeaderLocal := by
  have hlocal : ∀ b r, tinyCbor.parserInit b = true → head? (b ++ r) = head? b := by
    intro b r hinit
    cases hb : head? b with
    | none => simp [tinyCbor, hb] at hinit
    | some h => exact head?_append hb r
  refine ⟨fun b r h => ?_, fun b r h => ?_, fun b r h _ => ?_, fun b r h _ => ?_,
    fun b r h _ => ?_, fun b r h _ => ?_, fun b r h _ => ?_⟩
  · rw [← h]
    simp only [tinyCbor, hlocal b r h]
  all_goals simp only [tinyCbor, hlocal b r h]

theorem tinyCbor_headerFirst : tinyCbor.HeaderFirst where
  encode item buf := rfl
  init item r := by
    simp only [tinyCbor, head?_encoding]
    exact headOk_encoding item
  type item r := by
    simp only [tinyCbor, head?_encoding]
    exact headType_encoding item

theorem tinyCbor_type_head {b : List UInt8} {t : CborType} (ht : tinyCbor.type b = t)
    (hne : t ≠ .invalid) : ∃ h, head? b = some h ∧ headType h = t := by
  cases hb : head? b with
  | none =>
    simp only [tinyCbor, hb] at ht
    exact absurd ht.symm hne
  | some h => exact ⟨h, rfl, by simpa [tinyCbor, hb] using ht⟩

theorem tinyCbor_readsHeads : tinyCbor.ReadsHeads := by
  have hhead : ∀ b t, tinyCbor.parserInit b = true → tinyCbor.type b = t → t ≠ .invalid →
      ∃ h, head? b = some h ∧ headOk h = true ∧ headType h = t := by
    intro b t hinit ht hne
    obtain ⟨h, hb, hh⟩ := tinyCbor_type_head ht hne
    exact ⟨h, hb, by simpa [tinyCbor, hb] using hinit, hh⟩
  refine ⟨fun b hinit ht => ?_, fun b hinit ht => ?_, fun b hinit ht => ?_,
    fun b hinit ht => ?_⟩
  · obtain ⟨h, hb, hok, hh⟩ := hhead b _ hinit ht (by decide)
    unfold headType at hh
    split at hh <;> try contradiction
    rename_i arg size
    cases arg with
    | none => simp [headOk] at hok
    | some arg => exact ⟨arg, size, hb, by simp [tinyCbor, hb]⟩
  · obtain ⟨h, hb, hok, hh⟩ := hhead b _ hinit ht (by decide)
    unfold headType at hh
    split at hh <;> try contradiction
    rename_i arg size
    cases arg with
    | none => simp [headOk] at hok
    | some arg => exact ⟨arg, size, hb, by simp [tinyCbor, hb]⟩
  · obtain ⟨h, hb, hok, hh⟩ := hhead b _ hinit ht (by decide)
    unfold headType at hh
    split at hh <;> try contradiction
    rename_i arg
    cases arg with
    | none => simp [headOk] at hok
    | some arg => exact ⟨arg, hb, by simp [tinyCbor, hb]⟩
  · obtain ⟨h, hb, hok, hh⟩ := hhead b _ hinit ht (by decide)
    refine ⟨h, hb, ?_⟩
    unfold headType at hh
    split at hh <;> first | rfl | contradiction

theorem tinyCbor_readsStrings : tinyCbor.ReadsStrings := by
  have hmajor : ∀ h : Head, (headType h = .textString → h.major = 3) ∧
      (headType h = .byteString → h.major = 2) := by
    intro h
    unfold headType
    split <;> simp
  refine ⟨fun b _ ht => ⟨?_, fun _ => rfl⟩, fun b _ ht => ⟨?_, fun _ => rfl⟩⟩
  · obtain ⟨h, hb, hh⟩ := tinyCbor_type_head ht (by decide)
    exact ⟨h, hb, (hmajor h).1 hh⟩
  · obtain ⟨h, hb, hh⟩ := tinyCbor_type_head ht (by decide)
    exact ⟨h, hb, (hmajor h).2 hh⟩

end Laws

end BmCore.Configuration
