import BmCore.Common.Util
import BmCore.Configuration.Store
import BmCore.Library.Accesses
import BmCore.Library.ByteOrder

/-!
# Decoding a value message

`bcmp_config_decode_value` of `bcmp/config.c`, as the accesses to the caller's buffer. The functions
of TinyCBOR that copy a string into a buffer are parameters that access it themselves.

A number is stored in the byte order of the host. An argument that is missing is empty.
-/
namespace BmCore.Bcmp
open Library Cbor Configuration

/-! ## TinyCBOR -/

/-- `cbor_value_copy_text_string` and `cbor_value_copy_byte_string` on an iterator at some bytes and
a buffer of some size: if there is no error, and the length they leave behind. -/
structure StringCopies where
  text : List UInt8 → Nat → Access UInt8 (Bool × Nat)
  bytes : List UInt8 → Nat → Access UInt8 (Bool × Nat)

/-- A copy stays within its size, and succeeds if there is a string to be copied. -/
structure Copies (beyond : Nat → UInt8) (m : Access UInt8 (Bool × Nat)) (s : Option (List UInt8))
    (size : Nat) (buf : List UInt8) : Prop where
  below : m.Below beyond buf size
  success : (m.run beyond buf).1.1 = s.isSome
  copied : ∀ v, s = some v →
    (m.run beyond buf).1.2 = v.length ∧ (m.run beyond buf).2.take v.length = v

structure StringCopies.Law (copies : StringCopies) (cbor : TinyCbor) : Prop where
  text : ∀ beyond b size buf, cbor.parserInit b = true → cbor.type b = .textString →
    size ≤ buf.length → Copies beyond (copies.text b size) (cbor.copyTextString b size) size buf
  bytes : ∀ beyond b size buf, cbor.parserInit b = true → cbor.type b = .byteString →
    size ≤ buf.length → Copies beyond (copies.bytes b size) (cbor.copyByteString b size) size buf

/-! ## The decoder -/

section Decode
variable (cbor : TinyCbor) (copies : StringCopies) (order : ByteOrder)

/-- A number of four bytes, where there is one and room for it. -/
def storeWord (bufLength : Nat) (value : Option UInt32) : Access UInt8 (BmErr × Nat) :=
  match value with
  | none => pure (.ebadmsg, bufLength)
  | some v =>
    if bufLength < 4 then pure (.ebadmsg, bufLength)
    else do
      Access.writeRange 0 (order.bytes 4 v.toNat)
      pure (.ok, bufLength)

/-- What is left to do with a text that has been copied. -/
def terminateText (initLength : Nat) (copied : Bool) (length : Nat) : Access UInt8 (BmErr × Nat) :=
  if copied = false then pure (.ebadmsg, length)
  else if length > initLength then pure (.ebadmsg, length)
  else do
    Access.writeAt length 0
    pure (.ok, length)

/-- The cases of a type. -/
def decodeAs (type : ConfigDataTypes) (data : List UInt8) (bufLength : Nat) :
    Access UInt8 (BmErr × Nat) :=
  match type with
  | .uint32 => storeWord order bufLength ((cbor.getUint64 data).map (·.toUInt32))
  | .int32 => storeWord order bufLength ((cbor.getInt64 data).map (·.toInt32.toUInt32))
  | .float => storeWord order bufLength (cbor.getFloat data)
  | .str => do
    let (copied, length) ← copies.text data bufLength
    -- `init_length` has 32 bits
    terminateText (bufLength % 2 ^ 32) copied length
  | .bytes => do
    let (copied, length) ← copies.bytes data bufLength
    pure (if copied then .ok else .ebadmsg, length)
  | .array => pure (.ok, bufLength)

/-- `bcmp_config_decode_value`: what it returns, and `*buf_length` afterwards. -/
def bcmpConfigDecodeValue (type : ConfigDataTypes) (data : List UInt8) (bufLength : Nat) :
    Access UInt8 (BmErr × Nat) :=
  if data = [] ∨ bufLength = 0 then pure (.einval, bufLength)
  else if cbor.parserInit data = false ∨ cbor.type data = .invalid then pure (.ebadmsg, bufLength)
  else match cborTypeToConfig (cbor.type data) with
    | none => pure (.ebadmsg, bufLength)
    | some typeCmp =>
      if typeCmp ≠ type then pure (.eio, bufLength)
      else decodeAs cbor copies order type data bufLength

end Decode

/-! ## What a buffer holds -/

/-- A number of either kind that a word can hold. -/
def FitsWord (v : Int) : Prop := -2 ^ 31 ≤ v ∧ v < 2 ^ 32

instance (v : Int) : Decidable (FitsWord v) := inferInstanceAs (Decidable (_ ∧ _))

/-- A buffer and its output length hold a value. -/
def HoldsValue (order : ByteOrder) (type : ConfigDataTypes) (v : Value) (buf : List UInt8)
    (length : Nat) : Prop :=
  match type, v with
  | .uint32, .integer v => (order.nat (buf.take 4) : Int) = v
  | .int32, .integer v => (UInt32.ofNat (order.nat (buf.take 4))).toInt32.toInt = v
  | .float, .float bits => order.nat (buf.take 4) = bits
  | .str, .text s => length = s.length ∧ buf.take s.length = s
  | .bytes, .bytes s => length = s.length ∧ buf.take s.length = s
  | _, _ => False

/-- A decoder stays within the buffer, it gets the value right, and it refuses an integer that does
not fit. -/
structure Decodes (order : ByteOrder) (type : ConfigDataTypes) (data : List UInt8)
    (beyond : Nat → UInt8) (m : Access UInt8 (BmErr × Nat)) (buf : List UInt8) : Prop where
  within : m.Within beyond buf
  value : (m.run beyond buf).1.1 = .ok → type ≠ .array →
    ∃ v, value? data = some v ∧ HoldsValue order type v (m.run beyond buf).2 (m.run beyond buf).1.2
  refused : ∀ v, value? data = some (.integer v) → ¬ FitsWord v → (m.run beyond buf).1.1 ≠ .ok

/-- Data of the type that is asked for is no text that leaves no room for a terminator, and no
integer that is cut. -/
def DataFits (cbor : TinyCbor) (type : ConfigDataTypes) (data : List UInt8) (bufLength : Nat) :
    Prop :=
  cbor.parserInit data = true → cborTypeToConfig (cbor.type data) = some type →
    match value? data with
    | some (.text s) => ¬ (s.length = bufLength ∧ bufLength < 2 ^ 32)
    | some (.integer v) => 4 ≤ bufLength → FitsWord v
    | _ => True

section Cases
variable {order : ByteOrder} {type : ConfigDataTypes} {data : List UInt8} {beyond : Nat → UInt8}
  {buf : List UInt8}

theorem decodes_failed {err : BmErr} (herr : err ≠ .ok) (length : Nat) :
    Decodes order type data beyond (pure (err, length)) buf :=
  ⟨Access.within_pure _, fun hok => absurd hok herr, fun _ _ _ => herr⟩

variable (order beyond) in
/-- A word that is stored is read back. -/
theorem run_storeWord (v : UInt32) (h : 4 ≤ buf.length) :
    (storeWord order buf.length (some v)).Within beyond buf ∧
    ((storeWord order buf.length (some v)).run beyond buf).1 = (.ok, buf.length) ∧
    order.nat (((storeWord order buf.length (some v)).run beyond buf).2.take 4) = v.toNat := by
  have hroom : 0 + (order.bytes 4 v.toNat).length ≤ buf.length := by simpa using h
  have hlt : v.toNat < 256 ^ 4 := lt_of_lt_of_le v.toNat_lt (by norm_num)
  simp only [storeWord, if_neg (by omega : ¬ buf.length < 4)]
  refine ⟨Access.within_bind.mpr ⟨Access.within_writeRange hroom, Access.within_pure _⟩, ?_, ?_⟩
  · rw [Access.run_bind, Access.run_pure]
  · rw [Access.run_bind, Access.run_pure, Access.run_writeRange hroom]
    simp only [List.take_zero, List.nil_append]
    rw [List.take_left' (by simp), order.nat_bytes hlt]

/-- A number is decoded if the word that is stored is the number, or if it is not stored. -/
theorem decodes_storeWord {v : Value} {w : UInt32} (hv : value? data = some v)
    (htype : type ≠ .array)
    (hword : ∀ buf' length, order.nat (List.take 4 buf') = w.toNat →
      (HoldsValue order type v buf' length ↔ ∀ n, v = .integer n → FitsWord n)) :
    Decodes order type data beyond (storeWord order buf.length (some w)) buf ↔
      (4 ≤ buf.length → ∀ n, v = .integer n → FitsWord n) := by
  by_cases hroom : 4 ≤ buf.length
  · obtain ⟨hwithin, hok, hnat⟩ := run_storeWord order beyond w hroom
    constructor
    · intro h _
      obtain ⟨v', hv', hholds⟩ := h.value (by rw [hok]) htype
      obtain rfl := Option.some.inj (hv.symm.trans hv')
      exact (hword _ _ hnat).mp hholds
    · intro h
      refine ⟨hwithin, fun _ _ => ⟨v, hv, (hword _ _ hnat).mpr (h hroom)⟩, fun n hn hfits => ?_⟩
      exact absurd (h hroom n (Option.some.inj (hv.symm.trans hn))) hfits
  · have hshort : storeWord order buf.length (some w) = pure (.ebadmsg, buf.length) := by
      rw [storeWord, if_pos (by omega)]
    rw [hshort]
    exact iff_of_true (decodes_failed (by decide) _) fun h => absurd h hroom

theorem holds_uint32 {arg : Nat} {buf : List UInt8} {length : Nat}
    (h : order.nat (buf.take 4) = (UInt64.ofNat arg).toUInt32.toNat) :
    HoldsValue order .uint32 (.integer arg) buf length ↔
      ∀ n, Value.integer arg = .integer n → FitsWord n := by
  have hword : (UInt64.ofNat arg).toUInt32.toNat = arg % 2 ^ 32 := by
    rw [UInt64.toNat_toUInt32, UInt64.toNat_ofNat']
    omega
  simp only [HoldsValue, h, hword, Value.integer.injEq, forall_eq', FitsWord]
  omega

theorem holds_int32 {arg : Nat} {buf : List UInt8} {length : Nat}
    (h : order.nat (buf.take 4) = (Int64.ofInt (-1 - arg)).toInt32.toUInt32.toNat) :
    HoldsValue order .int32 (.integer (-1 - arg)) buf length ↔
      ∀ n, Value.integer (-1 - arg) = .integer n → FitsWord n := by
  have hword : (UInt32.ofNat (order.nat (buf.take 4))).toInt32.toInt =
      (-1 - arg : Int).bmod Int32.size := by
    rw [h, UInt32.ofNat_toNat, Int32.toInt32_toUInt32, Int64.toInt32_ofInt, Int32.toInt_ofInt]
  simp only [HoldsValue, hword, Value.integer.injEq, forall_eq', FitsWord, Int.bmod_def, Int32.size]
  omega

/-- A text is decoded if there is room behind it. -/
theorem decodes_text {m : Access UInt8 (Bool × Nat)} {s : List UInt8} {initLength : Nat}
    (hcopies : Copies beyond m (some s) buf.length buf) (hvalue : value? data = some (.text s)) :
    Decodes order .str data beyond (do
      let (copied, length) ← m
      terminateText initLength copied length) buf ↔
        ¬ (s.length = buf.length ∧ buf.length ≤ initLength) := by
  obtain ⟨hlength, hstored⟩ := hcopies.copied s rfl
  have hcopied : (m.run beyond buf).1 = (true, s.length) := Prod.ext hcopies.success hlength
  have hle : s.length ≤ buf.length := by
    have := congrArg List.length hstored
    rw [List.length_take, Access.length_run] at this
    omega
  generalize hm : (do
    let (copied, length) ← m
    terminateText initLength copied length : Access UInt8 (BmErr × Nat)) = decoder
  have hrun : decoder.run beyond buf =
      (terminateText initLength true s.length).run beyond (m.run beyond buf).2 := by
    rw [← hm, Access.run_bind, hcopied]
  have hwithin : decoder.Within beyond buf ↔
      (terminateText initLength true s.length).Within beyond (m.run beyond buf).2 := by
    rw [← hm, Access.within_bind, hcopied]
    exact and_iff_right hcopies.below
  by_cases hwide : s.length > initLength
  · have hrefused : terminateText initLength true s.length = pure (.ebadmsg, s.length) := by
      simp [terminateText, hwide]
    rw [hrefused] at hrun hwithin
    refine iff_of_true ⟨hwithin.mpr (Access.within_pure _), fun hok => ?_, fun v hv => ?_⟩
      (by omega)
    · simp [hrun] at hok
    · simp [hvalue] at hv
  · have hstore : terminateText initLength true s.length = (do
        Access.writeAt s.length 0
        pure (.ok, s.length)) := by
      simp [terminateText, hwide]
    rw [hstore] at hrun hwithin
    have hroom : decoder.Within beyond buf ↔ s.length < buf.length := by
      rw [hwithin, Access.within_bind, Access.within_writeAt, Access.length_run]
      exact and_iff_left (Access.within_pure _)
    constructor
    · intro h
      have := hroom.mp h.within
      omega
    · intro h
      refine ⟨hroom.mpr (by omega), fun _ _ => ⟨_, hvalue, ?_⟩, fun v hv => ?_⟩
      · rw [hrun, Access.run_bind, Access.run_writeAt, Access.run_pure]
        exact ⟨rfl, by rw [List.take_set_of_le (le_refl _), hstored]⟩
      · simp [hvalue] at hv

/-- A byte string is decoded if it is copied, and so is no string at all. -/
theorem decodes_bytes {m : Access UInt8 (Bool × Nat)} {s : Option (List UInt8)}
    (hcopies : Copies beyond m s buf.length buf)
    (hvalue : ∀ v, s = some v → value? data = some (.bytes v))
    (hinteger : ∀ v, value? data ≠ some (.integer v)) :
    Decodes order .bytes data beyond (do
      let (copied, length) ← m
      pure (if copied then .ok else .ebadmsg, length)) buf := by
  refine ⟨Access.within_bind.mpr ⟨hcopies.below, Access.within_pure _⟩, fun hok _ => ?_,
    fun v hv => absurd hv (hinteger v)⟩
  rw [Access.run_bind, Access.run_pure] at hok ⊢
  cases s with
  | none => simp [hcopies.success] at hok
  | some v => exact ⟨_, hvalue v rfl, hcopies.copied v rfl⟩

/-- Nor is there a text to be decoded if there is an error. -/
theorem decodes_text_failed {m : Access UInt8 (Bool × Nat)} {initLength : Nat}
    (hcopies : Copies beyond m none buf.length buf)
    (hinteger : ∀ v, value? data ≠ some (.integer v)) :
    Decodes order .str data beyond (do
      let (copied, length) ← m
      terminateText initLength copied length) buf := by
  have hcopied : (m.run beyond buf).1.1 = false := hcopies.success
  refine ⟨Access.within_bind.mpr ⟨hcopies.below, ?_⟩, fun hok _ => ?_,
    fun v hv => absurd hv (hinteger v)⟩
  · simp [hcopied, terminateText, Access.within_pure]
  · simp [hcopied, terminateText] at hok

end Cases

section Calls
variable {cbor : TinyCbor} {copies : StringCopies} {order : ByteOrder} {type : ConfigDataTypes}
  {data : List UInt8} {beyond : Nat → UInt8} {buf : List UInt8}

/-- What is not of the type that is asked for is refused. -/
theorem decodes_refused
    (h : cbor.parserInit data = true → cborTypeToConfig (cbor.type data) ≠ some type) :
    Decodes order type data beyond
      (bcmpConfigDecodeValue cbor copies order type data buf.length) buf := by
  unfold bcmpConfigDecodeValue
  split
  · exact decodes_failed (by decide) _
  split
  · exact decodes_failed (by decide) _
  rename_i hok
  split
  · exact decodes_failed (by decide) _
  rename_i typeCmp heq
  have hne : typeCmp ≠ type := by
    rintro rfl
    exact h (by simpa using (not_or.mp hok).1) heq
  rw [if_pos hne]
  exact decodes_failed (by decide) _

/-- The decoder on data of the type that is asked for. -/
theorem bcmpConfigDecodeValue_accepted (hbuf : buf ≠ []) (hinit : cbor.parserInit data = true)
    (hdata : data ≠ []) (htype : cborTypeToConfig (cbor.type data) = some type) :
    bcmpConfigDecodeValue cbor copies order type data buf.length =
      decodeAs cbor copies order type data buf.length := by
  have hvalid : cbor.type data ≠ .invalid := by
    intro hinvalid
    rw [hinvalid] at htype
    cases htype
  unfold bcmpConfigDecodeValue
  rw [if_neg (by simp [hdata, hbuf]), if_neg (by simp [hinit, hvalid]), htype]
  simp only [ne_eq, not_true_eq_false, if_false]

/-- A text that is there as a whole is copied if it fits. -/
theorem decodes_as_text (hstrings : cbor.ReadsStrings) (hcopies : copies.Law cbor)
    (hinit : cbor.parserInit data = true) (ht : cbor.type data = .textString) :
    Decodes order .str data beyond (decodeAs cbor copies order .str data buf.length) buf ↔
      match value? data with
      | some (.text s) => ¬ (s.length = buf.length ∧ buf.length < 2 ^ 32)
      | some (.integer v) => 4 ≤ buf.length → FitsWord v
      | _ => True := by
  obtain ⟨⟨head, hhead, hmajor⟩, hcopy⟩ := hstrings.text data hinit ht
  have hcopied := hcopies.text beyond data buf.length buf hinit ht le_rfl
  have hvalue := value?_text hhead hmajor
  rw [hcopy] at hcopied
  rw [decodeAs, hvalue]
  cases hs : string? data with
  | none =>
    rw [hs] at hcopied hvalue
    exact iff_true_intro (decodes_text_failed hcopied (by simp [hvalue]))
  | some s =>
    rw [hs] at hcopied hvalue
    by_cases hle : s.length ≤ buf.length
    · rw [Option.filter_some, if_pos (by simpa using hle)] at hcopied
      refine (decodes_text hcopied hvalue).trans (not_congr (and_congr_right fun _ => ?_))
      omega
    · -- a text that is too long is not copied
      rw [Option.filter_some, if_neg (by simpa using hle)] at hcopied
      refine iff_of_true (decodes_text_failed hcopied (by simp [hvalue])) ?_
      simp only [Option.map_some]
      omega

section Laws
variable (hheads : cbor.ReadsHeads) (hstrings : cbor.ReadsStrings) (hcopies : copies.Law cbor)
  (hinit : cbor.parserInit data = true)
include hheads hstrings hcopies hinit

/-- Data of the type that is asked for. -/
theorem decodes_as (htype : cborTypeToConfig (cbor.type data) = some type) :
    Decodes order type data beyond (decodeAs cbor copies order type data buf.length) buf ↔
      match value? data with
      | some (.text s) => ¬ (s.length = buf.length ∧ buf.length < 2 ^ 32)
      | some (.integer v) => 4 ≤ buf.length → FitsWord v
      | _ => True := by
  cases ht : cbor.type data with
  | unsignedInteger =>
    obtain rfl : .uint32 = type := by simpa [ht, cborTypeToConfig] using htype
    obtain ⟨arg, size, hhead, hget⟩ := hheads.unsigned data hinit ht
    have hvalue : value? data = some (.integer arg) := by
      rw [value?, hhead]
      rfl
    rw [decodeAs, hget, hvalue]
    simpa using decodes_storeWord hvalue (by decide) fun _ _ => holds_uint32
  | negativeInteger =>
    obtain rfl : .int32 = type := by simpa [ht, cborTypeToConfig] using htype
    obtain ⟨arg, size, hhead, hget⟩ := hheads.negative data hinit ht
    have hvalue : value? data = some (.integer (-1 - arg)) := by
      rw [value?, hhead]
      rfl
    rw [decodeAs, hget, hvalue]
    simpa using decodes_storeWord hvalue (by decide) fun _ _ => holds_int32
  | float =>
    obtain rfl : .float = type := by simpa [ht, cborTypeToConfig] using htype
    obtain ⟨bits, hhead, hget⟩ := hheads.float data hinit ht
    have hvalue : value? data = some (.float bits) := by
      rw [value?, hhead]
      rfl
    have hlt : bits < 2 ^ 32 := by simpa using head?_arg_lt hhead
    rw [decodeAs, hget, hvalue]
    refine iff_true_intro ((decodes_storeWord hvalue (by decide) fun buf' length h => ?_).mpr ?_)
    · refine iff_of_true ?_ (by simp)
      rw [HoldsValue, h, UInt32.toNat_ofNat', Nat.mod_eq_of_lt hlt]
    · simp
  | textString =>
    obtain rfl : .str = type := by simpa [ht, cborTypeToConfig] using htype
    exact decodes_as_text hstrings hcopies hinit ht
  | byteString =>
    obtain rfl : .bytes = type := by simpa [ht, cborTypeToConfig] using htype
    obtain ⟨⟨head, hhead, hmajor⟩, hcopy⟩ := hstrings.bytes data hinit ht
    have hcopied := hcopies.bytes beyond data buf.length buf hinit ht le_rfl
    have hvalue := value?_bytes hhead hmajor
    rw [hcopy] at hcopied
    rw [decodeAs, hvalue]
    refine iff_of_true (decodes_bytes hcopied ?_ ?_) ?_
    · intro v hv
      rw [hvalue, (Option.filter_eq_some_iff.mp hv).1]
      rfl
    · cases hs : string? data <;> simp [hvalue, hs]
    · cases string? data <;> trivial
  | array =>
    obtain rfl : .array = type := by simpa [ht, cborTypeToConfig] using htype
    obtain ⟨head, hhead, hmajor⟩ := hheads.array data hinit ht
    have hvalue := value?_array hhead hmajor
    rw [decodeAs, hvalue]
    exact iff_true_intro ⟨Access.within_pure _, fun _ h => absurd rfl h, by simp [hvalue]⟩
  | other => simp [ht, cborTypeToConfig] at htype
  | invalid => simp [ht, cborTypeToConfig] at htype

end Laws

end Calls

/-- The decoder keeps its bounds, gets every value right and refuses an integer that does not fit if
and only if the data is no text that fills the buffer and no integer of the type asked for that has
more than 32 bits. -/
theorem decode_value_iff {cbor : TinyCbor} {copies : StringCopies} (hheads : cbor.ReadsHeads)
    (hstrings : cbor.ReadsStrings) (hcopies : copies.Law cbor) (order : ByteOrder)
    (type : ConfigDataTypes) (data : List UInt8) (beyond : Nat → UInt8) (buf : List UInt8)
    (hbuf : buf ≠ []) :
    Decodes order type data beyond
      (bcmpConfigDecodeValue cbor copies order type data buf.length) buf ↔
      DataFits cbor type data buf.length := by
  by_cases hdata : data = []
  · subst hdata
    refine iff_of_true ?_ fun _ _ => trivial
    rw [bcmpConfigDecodeValue, if_pos (.inl rfl)]
    exact decodes_failed (by decide) _
  by_cases haccepted : cbor.parserInit data = true ∧ cborTypeToConfig (cbor.type data) = some type
  · obtain ⟨hinit, htype⟩ := haccepted
    rw [bcmpConfigDecodeValue_accepted hbuf hinit hdata htype,
      decodes_as hheads hstrings hcopies hinit htype]
    exact ⟨fun h _ _ => h, fun h => h hinit htype⟩
  · exact iff_of_true (decodes_refused fun hinit htype => haccepted ⟨hinit, htype⟩)
      fun hinit htype => absurd ⟨hinit, htype⟩ haccepted

/-! ## Copies that are made -/

/-- A string that fits is stored, with a terminator if there is room for it. -/
def copyString (s : Option (List UInt8)) (size : Nat) : Access UInt8 (Bool × Nat) :=
  match s with
  | none => pure (false, size)
  | some s =>
    if size < s.length then pure (false, s.length)
    else do
      Access.writeRange 0 s
      if s.length < size then Access.writeAt s.length 0
      pure (true, s.length)

def plainCopies : StringCopies where
  text b size := copyString (string? b) size
  bytes b size := copyString (string? b) size

theorem copies_copyString (beyond : Nat → UInt8) (s : Option (List UInt8)) {size : Nat}
    {buf : List UInt8} (h : size ≤ buf.length) :
    Copies beyond (copyString s size) (s.filter (·.length ≤ size)) size buf := by
  cases s with
  | none => exact ⟨Access.below_pure _ _, rfl, fun v hv => by simp at hv⟩
  | some s =>
    by_cases hlong : size < s.length
    · have hnone : (some s).filter (·.length ≤ size) = none := by simp [hlong]
      rw [copyString, if_pos hlong, hnone]
      exact ⟨Access.below_pure _ _, rfl, fun v hv => by simp at hv⟩
    · have hsome : (some s).filter (·.length ≤ size) = some s := by simpa using hlong
      have hroom : 0 + s.length ≤ buf.length := by omega
      rw [copyString, if_neg hlong, hsome]
      refine ⟨?_, ?_, ?_⟩
      · refine (Access.below_writeRange (by omega)).bind fun _ _ => ?_
        split
        · exact (Access.below_writeAt.mpr ‹_›).bind fun _ _ => Access.below_pure _ _
        · exact Access.below_pure _ _
      · split <;> simp
      · rintro v hv
        obtain rfl := Option.some.inj hv
        split <;> simp [Access.run_writeRange hroom]

theorem plainCopies_law : plainCopies.Law tinyCbor where
  text beyond b _ _ _ _ h := copies_copyString beyond (string? b) h
  bytes beyond b _ _ _ _ h := copies_copyString beyond (string? b) h

/-- A text of two characters in a buffer of four. -/
theorem decode_value_short_text :
    Decodes .little .str [0x62, 0x61, 0x62] (fun _ => 0)
      (bcmpConfigDecodeValue tinyCbor plainCopies .little .str [0x62, 0x61, 0x62] 4) [0, 0, 0, 0] :=
  (decode_value_iff tinyCbor_readsHeads tinyCbor_readsStrings plainCopies_law .little .str
    [0x62, 0x61, 0x62] (fun _ => 0) [0, 0, 0, 0] (by decide)).mpr fun _ _ => by
      have hvalue : value? [0x62, 0x61, 0x62] = some (.text [0x61, 0x62]) := by decide
      rw [hvalue]
      simp

/-- The terminator of a text of three characters is behind a buffer of three, and `2 ^ 32` is
decoded as 0. -/
theorem decode_value_overruns :
    ¬ Decodes .little .str [0x63, 0x61, 0x62, 0x63] (fun _ => 0)
      (bcmpConfigDecodeValue tinyCbor plainCopies .little .str [0x63, 0x61, 0x62, 0x63] 3)
      [0, 0, 0] ∧
    ¬ Decodes .little .uint32 [0x1B, 0, 0, 0, 1, 0, 0, 0, 0] (fun _ => 0)
      (bcmpConfigDecodeValue tinyCbor plainCopies .little .uint32 [0x1B, 0, 0, 0, 1, 0, 0, 0, 0] 4)
      [0, 0, 0, 0] := by
  refine ⟨fun h => absurd h.within (by decide), fun h => ?_⟩
  have hvalue : value? [0x1B, 0, 0, 0, 1, 0, 0, 0, 0] = some (.integer (2 ^ 32)) := by decide
  exact h.refused _ hvalue (by decide) (by decide)

end BmCore.Bcmp
