import BmCore.Configuration.Integers
import BmCore.Configuration.WritePaths
import BmCore.Library.CborMap

/-!
# A partition as a CBOR map

`services_cbor_as_map` (`middleware/cbor_service_helper.c`). The values are got from the store and
encoded again into a buffer of 512 bytes; if that is too small, once more into one of the size that
the encoder has counted.

The encoder of TinyCBOR is a parameter. `Encoding.Correct` is what its documentation says.
-/
namespace BmCore.Middleware
open Library BmCore.Configuration Cbor

/-! ## The encoder -/

inductive CborError where
  | noError
  | outOfMemory
  | tooFewItems
  | tooManyItems
  | other
  deriving DecidableEq

/-- `CborEncoder` -/
structure CborEncoder where
  /-- The buffer up to `data.ptr`. -/
  written : List UInt8
  /-- What is left between `data.ptr` and `end`. -/
  room : Nat
  /-- `data.bytes_needed`, once `end` is NULL. -/
  bytesNeeded : Option Nat
  /-- One more than the items that are missing. -/
  remaining : Nat

/-- The functions of the encoder. -/
structure Encoding where
  /-- `cbor_encoder_init` with the size of the buffer. -/
  init : Nat → CborEncoder
  /-- `cbor_encoder_create_map`: the encoder of the map. -/
  createMap : CborEncoder → Nat → CborError × CborEncoder
  encode : CborEncoder → CborItem → CborError × CborEncoder
  /-- `cbor_encoder_close_container`: the outer encoder, from that of the container. -/
  closeContainer : CborEncoder → CborError × CborEncoder

/-- What appending does to an encoder: bytes that do not fit are counted. -/
structure Appends (enc : CborEncoder) (bs : List UInt8) (result : CborError × CborEncoder) :
    Prop where
  fits : enc.bytesNeeded = none → bs.length ≤ enc.room → result.1 = .noError ∧
    result.2.written = enc.written ++ bs ∧ result.2.room = enc.room - bs.length ∧
    result.2.bytesNeeded = none
  full : enc.bytesNeeded = none → enc.room < bs.length → result.1 = .outOfMemory ∧
    result.2.bytesNeeded = some (bs.length - enc.room)
  more : ∀ needed, enc.bytesNeeded = some needed → bs ≠ [] → result.1 = .outOfMemory ∧
    result.2.bytesNeeded = some (needed + bs.length)

/-- The encoder appends what RFC 8949 has for an item, and it counts the items of a map. -/
structure Encoding.Correct (e : Encoding) : Prop where
  init : ∀ size, (e.init size).written = [] ∧ (e.init size).room = size ∧
    (e.init size).bytesNeeded = none
  createMap : ∀ enc n, Appends enc (encodeHead 5 n) (e.createMap enc n) ∧
    (e.createMap enc n).2.remaining = 2 * n + 1
  encode : ∀ enc item, Appends enc item.encoded (e.encode enc item) ∧
    (e.encode enc item).2.remaining = enc.remaining - 1
  closeContainer : ∀ map, (e.closeContainer map).1 =
      (if map.remaining = 0 then .tooManyItems
      else if map.remaining ≠ 1 then .tooFewItems
      else if map.bytesNeeded.isSome then .outOfMemory else .noError) ∧
    (e.closeContainer map).2.written = map.written ∧
    (e.closeContainer map).2.bytesNeeded = map.bytesNeeded

/-- Appends to the buffer, as TinyCBOR has it. -/
def CborEncoder.append (enc : CborEncoder) (bs : List UInt8) : CborError × CborEncoder :=
  match enc.bytesNeeded with
  | some needed => (.outOfMemory, { enc with bytesNeeded := some (needed + bs.length) })
  | none =>
    if bs.length ≤ enc.room then
      (.noError, { enc with written := enc.written ++ bs, room := enc.room - bs.length })
    else (.outOfMemory, { enc with bytesNeeded := some (bs.length - enc.room) })

def tinyCborEncoding : Encoding where
  init size := ⟨[], size, none, 2⟩
  createMap enc n := { enc with remaining := 2 * n + 1 }.append (encodeHead 5 n)
  encode enc item := { enc with remaining := enc.remaining - 1 }.append item.encoded
  closeContainer map :=
    (if map.remaining = 0 then .tooManyItems
      else if map.remaining ≠ 1 then .tooFewItems
      else if map.bytesNeeded.isSome then .outOfMemory else .noError, map)

theorem CborEncoder.append_appends (enc : CborEncoder) (bs : List UInt8) (r : Nat) :
    Appends enc bs ({ enc with remaining := r }.append bs) ∧
      ({ enc with remaining := r }.append bs).2.remaining = r := by
  unfold CborEncoder.append
  cases hneeded : enc.bytesNeeded with
  | some needed => exact ⟨⟨by simp [hneeded], by simp [hneeded], by simp [hneeded]⟩, rfl⟩
  | none =>
    dsimp only
    split_ifs with hfits
    · exact ⟨⟨by simp [hneeded], by intro _ h; omega, by simp [hneeded]⟩, rfl⟩
    · exact ⟨⟨by intro _ h; omega, by simp [hneeded], by simp [hneeded]⟩, rfl⟩

theorem tinyCborEncoding_correct : tinyCborEncoding.Correct where
  init _ := ⟨rfl, rfl, rfl⟩
  createMap enc _ := enc.append_appends _ _
  encode enc _ := enc.append_appends _ _
  closeContainer _ := ⟨rfl, rfl, rfl⟩

/-! ## The loops -/

/-- `MAX_STR_LEN_BYTES` -/
def maxStrLenBytes : Nat := 50

/-- What a case of the switch does with the value. -/
inductive Fetched where
  /-- TinyCBOR is asked for a value of another type. -/
  | undefined
  | failed
  /-- Nothing is encoded. -/
  | skipped
  | item (item : CborItem)
  /-- The bytes are copied past the encoder. -/
  | raw

/-- The switch on the type of the key. -/
def fetch (cbor : TinyCbor) (valueType : ConfigDataTypes) (it : List UInt8) : Fetched :=
  match valueType with
  | .uint32 =>
    if cbor.type it ≠ .unsignedInteger then .undefined
    else match cbor.getUint64 it with
      | some temp => .item (.uint temp.toUInt32)
      | none => .failed
  | .int32 =>
    if !cbor.isInteger it then .undefined
    else match cbor.getInt64 it with
      | some temp => .item (.int temp.toInt32)
      | none => .failed
  | .float =>
    if cbor.type it ≠ .float then .undefined
    else match cbor.getFloat it with
      | some tmpF => .item (.float tmpF)
      | none => .failed
  | .str =>
    if cbor.type it ≠ .textString then .undefined
    else match cbor.copyTextString it maxStrLenBytes with
      | some tmpS =>
        if tmpS.length ≥ maxConfigBufferSizeBytes then .skipped else .item (.text tmpS)
      | none => .skipped
  | .bytes =>
    if cbor.type it ≠ .byteString then .undefined
    else match cbor.copyByteString it maxStrLenBytes with
      | some tmpS =>
        if tmpS.length ≥ maxConfigBufferSizeBytes then .skipped else .item (.bytes tmpS)
      | none => .skipped
  | .array => .raw

/-- `memcpy` to `map.data.ptr`, which the encoder does not know of. -/
def CborEncoder.copyRaw (map : CborEncoder) (bs : List UInt8) : CborEncoder :=
  if map.bytesNeeded = none ∧ bs.length < map.room then
    { map with written := map.written ++ bs, room := map.room - bs.length }
  else map

/-- The variables of the loop; `it` is given by the bytes it is on. -/
structure MapLoop where
  map : CborEncoder
  err : CborError
  it : List UInt8

/-- The loop goes on after this error. -/
def CborError.goesOn (err : CborError) : Bool := err == .noError || err == .outOfMemory

/-- The loop is left, or it goes on. -/
inductive Pass where
  | undefined
  | left (s : MapLoop)
  | next (s : MapLoop)

section
variable (cbor : TinyCbor) (enc : Encoding) (p : ConfigPartition)

/-- The loop for one key. -/
def encodeEntry (key : ConfigKey) (s : MapLoop) : Pass :=
  let (err, map) := enc.encode s.map (.text (chars key.keyLen key.keyBuf.bytes))
  if !err.goesOn then .left { s with map, err }
  else
    let tmpB := getConfigCbor cbor p key.keyBuf.bytes key.keyLen maxStrLenBytes
    if tmpB.any (!cbor.parserInit ·) then .left { s with map, err }
    else
      -- the iterator stays on the value of the last key if this one is not got
      let it := tmpB.getD s.it
      if cbor.type it = .invalid then .left ⟨map, err, it⟩
      else match fetch cbor key.valueType it with
        | .undefined => .undefined
        | .failed => .left ⟨map, err, it⟩
        | .skipped => .next ⟨map, err, it⟩
        | .item item =>
          let (err, map) := enc.encode map item
          if err.goesOn then .next ⟨map, err, it⟩ else .left ⟨map, err, it⟩
        | .raw => .next ⟨map.copyRaw (tmpB.getD (List.replicate maxStrLenBytes 0)), err, it⟩

/-- The loop; `none` if TinyCBOR was asked for a value of another type. -/
def encodeEntries : List ConfigKey → MapLoop → Option MapLoop
  | [], s => some s
  | key :: keys, s =>
    match encodeEntry cbor enc p key s with
    | .undefined => none
    | .left s => some s
    | .next s => encodeEntries keys s

/-- How a round ends. -/
inductive MapRound where
  | undefined
  | retry (allocatedSize : Nat) (it : List UInt8)
  | buffer (bytes : List UInt8)
  | null

/-- `get_stored_keys` -/
def storedKeys : List ConfigKey := (List.range p.numKeys).map p.keys

/-- One round with a buffer. -/
def mapRound (allocatedSize : Nat) (it : List UInt8) : MapRound :=
  let (err, map) := enc.createMap (enc.init allocatedSize) p.numKeys
  -- the buffer is returned with `*buffer_size` at 0
  if !err.goesOn then .buffer []
  else match encodeEntries cbor enc p (storedKeys p) ⟨map, err, it⟩ with
    | none => .undefined
    | some s =>
      if s.err.goesOn then
        let (err, encoder) := enc.closeContainer s.map
        match err with
        | .outOfMemory => .retry (allocatedSize + encoder.bytesNeeded.getD 0) s.it
        | .noError => .buffer encoder.written
        | _ => .null
      else .null

/-- What `services_cbor_as_map` returns: a buffer up to `*buffer_size`, or NULL. -/
inductive MapResult where
  | undefined
  | buffer (bytes : List UInt8)
  | null
  deriving DecidableEq

/-- The rounds from some size on, as many as there is fuel for; `malloc n` is the result of the
allocation with number `n`. -/
def mapRounds (malloc : Nat → Bool) : Nat → Nat → Nat → List UInt8 → Option MapResult
  | 0, _, _, _ => none
  | fuel + 1, n, allocatedSize, it =>
    if !malloc n then some .null
    else match mapRound cbor enc p allocatedSize it with
      | .undefined => some .undefined
      | .retry allocatedSize it => mapRounds malloc fuel (n + 1) allocatedSize it
      | .buffer bytes => some (.buffer bytes)
      | .null => some .null

/-- `services_cbor_as_map`, with what is in the iterator at first. -/
def servicesCborAsMap (malloc : Nat → Bool) (it : List UInt8) (fuel : Nat) : Option MapResult :=
  mapRounds cbor enc p malloc fuel 0 512 it

end

/-! ## What is encoded -/

/-- What an item stands for. -/
def itemValue : CborItem → Value
  | .uint value => .integer value.toNat
  | .int value => .integer value.toInt
  | .float value => .float value.toNat
  | .text value => .text value
  | .bytes value => .bytes value

/-- An encoder that has been given bytes, in a buffer of some size. -/
def Given (enc : CborEncoder) (size : Nat) (bs : List UInt8) : Prop :=
  if bs.length ≤ size then
    enc.bytesNeeded = none ∧ enc.written = bs ∧ enc.room = size - bs.length
  else enc.bytesNeeded = some (bs.length - size)

section
variable {enc : CborEncoder} {size : Nat} {bs b : List UInt8} {result : CborError × CborEncoder}

theorem Appends.given (h : Appends enc b result) (hgiven : Given enc size bs) (hb : b ≠ []) :
    Given result.2 size (bs ++ b) ∧ result.1.goesOn = true := by
  have hpos := List.length_pos_iff.mpr hb
  unfold Given at hgiven ⊢
  rw [List.length_append]
  by_cases hfits : bs.length ≤ size
  · rw [if_pos hfits] at hgiven
    obtain ⟨hneeded, hwritten, hroom⟩ := hgiven
    by_cases hfits' : bs.length + b.length ≤ size
    · obtain ⟨herr, hw, hr, hn⟩ := h.fits hneeded (by omega)
      rw [if_pos hfits', hw, hwritten, hr, hroom, herr]
      exact ⟨⟨hn, rfl, by omega⟩, rfl⟩
    · obtain ⟨herr, hn⟩ := h.full hneeded (by omega)
      rw [if_neg hfits', hn, hroom, herr]
      exact ⟨congrArg some (by omega), rfl⟩
  · rw [if_neg hfits] at hgiven
    obtain ⟨herr, hn⟩ := h.more _ hgiven hb
    rw [if_neg (by omega), hn, herr]
    exact ⟨congrArg some (by omega), rfl⟩

theorem encodeHead_ne_nil (major arg : Nat) : encodeHead major arg ≠ [] := by
  unfold encodeHead
  split_ifs <;> simp

theorem encoded_ne_nil (item : CborItem) : item.encoded ≠ [] := by
  have hhead : item.encoding.1 ≠ [] := by
    cases item with
    | int value =>
      simp only [CborItem.encoding]
      split <;> exact encodeHead_ne_nil _ _
    | float value => simp [CborItem.encoding]
    | uint value => exact encodeHead_ne_nil _ _
    | text value => exact encodeHead_ne_nil _ _
    | bytes value => exact encodeHead_ne_nil _ _
  simp [CborItem.encoded, hhead]

/-- What is encoded is read back, unless a string is longer than its head can say. -/
theorem isItem_encoded (item : CborItem)
    (hshort : ∀ s, item = .text s ∨ item = .bytes s → s.length < 2 ^ 64) :
    IsItem item.encoded (itemValue item) := by
  cases item with
  | uint value =>
    have hlt := value.toNat_lt
    have hitem := isItem_unsigned (show value.toNat < 2 ^ 64 by omega)
    simpa [CborItem.encoded, CborItem.encoding, itemValue] using hitem
  | int value =>
    have hlow := value.le_toInt
    have hhigh := value.toInt_lt
    by_cases hneg : 0 ≤ value.toInt
    · have hitem := isItem_unsigned (show value.toInt.toNat < 2 ^ 64 by omega)
      rw [Int.toNat_of_nonneg hneg] at hitem
      simpa [CborItem.encoded, CborItem.encoding, itemValue, hneg] using hitem
    · have hitem := isItem_negative (show (-1 - value.toInt).toNat < 2 ^ 64 by omega)
      rw [Int.toNat_of_nonneg (by omega), sub_sub_cancel] at hitem
      simpa [CborItem.encoded, CborItem.encoding, itemValue, hneg] using hitem
  | float value =>
    have hitem := isItem_float (show value.toNat < 2 ^ 32 from value.toNat_lt)
    simpa [CborItem.encoded, CborItem.encoding, itemValue] using hitem
  | text value =>
    have hlt := hshort value (.inl rfl)
    have hitem := isItem_text hlt
    rw [← Nat.mod_eq_of_lt hlt] at hitem
    exact hitem
  | bytes value =>
    have hlt := hshort value (.inr rfl)
    have hitem := isItem_bytes hlt
    rw [← Nat.mod_eq_of_lt hlt] at hitem
    exact hitem

end

/-! ## The values of a partition -/

/-- The value in a slot is of the type of its key; an array may be anything. -/
def OfType (cbor : TinyCbor) (valueType : ConfigDataTypes) (it : List UInt8) : Prop :=
  match valueType with
  | .uint32 => cbor.type it = .unsignedInteger
  | .int32 => cbor.isInteger it = true
  | .float => cbor.type it = .float
  | .str => cbor.type it = .textString
  | .bytes => cbor.type it = .byteString
  | .array => True

instance (cbor : TinyCbor) (valueType : ConfigDataTypes) (it : List UInt8) :
    Decidable (OfType cbor valueType it) :=
  match valueType with
  | .uint32 => inferInstanceAs (Decidable (cbor.type it = .unsignedInteger))
  | .int32 => inferInstanceAs (Decidable (cbor.isInteger it = true))
  | .float => inferInstanceAs (Decidable (cbor.type it = .float))
  | .str => inferInstanceAs (Decidable (cbor.type it = .textString))
  | .bytes => inferInstanceAs (Decidable (cbor.type it = .byteString))
  | .array => instDecidableTrue

/-- An array, or a string that does not end in its slot. -/
def Omitted (valueType : ConfigDataTypes) (it : List UInt8) : Prop :=
  match valueType with
  | .array => True
  | .str | .bytes => string? it = none
  | _ => False

/-- The value as a type of 32 bits has it. -/
def narrowed (valueType : ConfigDataTypes) (v : Value) : Value :=
  match valueType, v with
  | .uint32, .integer n => .integer (n % 2 ^ 32)
  | .int32, .integer n => .integer (n.bmod (2 ^ 32))
  | _, v => v

/-- The integers of a type. -/
def InRange (valueType : ConfigDataTypes) (n : Int) : Prop :=
  match valueType with
  | .uint32 => 0 ≤ n ∧ n < 2 ^ 32
  | .int32 => -2 ^ 31 ≤ n ∧ n < 2 ^ 31
  | _ => True

theorem narrowed_eq_iff {valueType : ConfigDataTypes} {v : Value} :
    narrowed valueType v = v ↔ ∀ n, v = .integer n → InRange valueType n := by
  cases v with
  | integer n =>
    cases valueType with
    | uint32 =>
      simp only [narrowed, Value.integer.injEq, forall_eq', InRange]
      omega
    | int32 =>
      simp only [narrowed, Value.integer.injEq, forall_eq', InRange]
      rw [← toInt_toInt32_eq_iff, Int64.toInt32_ofInt, Int32.toInt_ofInt]
      rfl
    | _ => simp [narrowed, InRange]
  | _ => cases valueType <;> simp [narrowed]

/-- What TinyCBOR promises of the parser. -/
structure Parses (cbor : TinyCbor) : Prop where
  header : cbor.HeaderLocal
  first : cbor.HeaderFirst
  heads : cbor.ReadsHeads
  signed : cbor.ReadsSigned
  strings : cbor.ReadsStrings

section
variable {cbor : TinyCbor} {valueType : ConfigDataTypes} {it : List UInt8}

theorem fetch_undefined (h : ¬ OfType cbor valueType it) :
    fetch cbor valueType it = .undefined := by
  cases valueType <;> simp_all [OfType, fetch]

/-- What the switch has for a value of the type of its key. -/
inductive FetchedValue (valueType : ConfigDataTypes) (it : List UInt8) : Fetched → Prop where
  | skipped (homitted : Omitted valueType it) : FetchedValue valueType it .skipped
  | raw (homitted : Omitted valueType it) : FetchedValue valueType it .raw
  | item (item : CborItem) (v : Value) (hfound : ¬ Omitted valueType it)
      (hvalue : value? it = some v)
      (hshort : ∀ s, item = .text s ∨ item = .bytes s → s.length < 2 ^ 64)
      (hitem : itemValue item = narrowed valueType v) :
      FetchedValue valueType it (.item item)

theorem fetch_uint32 (h : Parses cbor) (hinit : cbor.parserInit it = true)
    (htype : cbor.type it = .unsignedInteger) :
    FetchedValue .uint32 it (fetch cbor .uint32 it) := by
  obtain ⟨arg, size, hhead, hget⟩ := h.heads.unsigned it hinit htype
  have hfetch : fetch cbor .uint32 it = .item (.uint (UInt64.ofNat arg).toUInt32) := by
    simp [fetch, htype, hget]
  rw [hfetch]
  refine .item _ (.integer arg) id (by simp [value?, hhead]) (by simp) ?_
  rw [itemValue, UInt64.toNat_toUInt32, UInt64.toNat_ofNat', Nat.mod_eq_of_lt (arg_lt hhead)]
  simp [narrowed]

theorem fetch_int32 (h : Parses cbor) (hinit : cbor.parserInit it = true)
    (htype : cbor.isInteger it = true) : FetchedValue .int32 it (fetch cbor .int32 it) := by
  obtain ⟨n, hvalue, hget⟩ : ∃ n, value? it = some (.integer n) ∧
      cbor.getInt64 it = some (.ofInt n) := by
    have hsigns := htype
    rw [TinyCbor.isInteger, Bool.or_eq_true, beq_iff_eq, beq_iff_eq] at hsigns
    rcases hsigns with hunsigned | hnegative
    · obtain ⟨arg, size, hhead, hget⟩ := h.signed it hinit hunsigned
      exact ⟨arg, by simp [value?, hhead], hget⟩
    · obtain ⟨arg, size, hhead, hget⟩ := h.heads.negative it hinit hnegative
      exact ⟨-1 - arg, by simp [value?, hhead], hget⟩
  have hfetch : fetch cbor .int32 it = .item (.int (Int64.ofInt n).toInt32) := by
    simp [fetch, htype, hget]
  rw [hfetch]
  refine .item _ (.integer n) id hvalue (by simp) ?_
  rw [itemValue, Int64.toInt32_ofInt, Int32.toInt_ofInt]
  rfl

theorem fetch_float (h : Parses cbor) (hinit : cbor.parserInit it = true)
    (htype : cbor.type it = .float) : FetchedValue .float it (fetch cbor .float it) := by
  obtain ⟨bits, hhead, hget⟩ := h.heads.float it hinit htype
  have hfetch : fetch cbor .float it = .item (.float (.ofNat bits)) := by
    simp [fetch, htype, hget]
  rw [hfetch]
  refine .item _ (.float bits) id (by simp [value?, hhead]) (by simp) ?_
  have hbits : bits < 2 ^ 32 := by
    rcases head?_arg_lt hhead with ⟨-, hlt⟩ | ⟨-, hlt⟩
    · omega
    · exact lt_of_lt_of_le hlt (by norm_num)
  simpa [itemValue, narrowed, UInt32.toNat_ofNat'] using hbits

/-- A string that ends in its slot is copied, and it fits the buffer. -/
theorem fetch_string {item : List UInt8 → CborItem} {v : List UInt8 → Value}
    (hlen : it.length ≤ maxStrLenBytes) (homitted : Omitted valueType it ↔ string? it = none)
    (hvalue : value? it = (string? it).map v)
    (hbytes : ∀ s s', item s = .text s' ∨ item s = .bytes s' → s' = s)
    (hitem : ∀ s, itemValue (item s) = narrowed valueType (v s)) :
    FetchedValue valueType it
      (match (string? it).filter (·.length ≤ maxStrLenBytes) with
        | some tmpS =>
          if tmpS.length ≥ maxConfigBufferSizeBytes then .skipped else .item (item tmpS)
        | none => .skipped) := by
  cases hstring : string? it with
  | none => exact .skipped (homitted.mpr hstring)
  | some s =>
    have hlt : s.length < 50 := Nat.lt_of_lt_of_le (string?_length_lt hstring) hlen
    have hcopied : (some s).filter (·.length ≤ maxStrLenBytes) = some s := by
      simp [Option.filter, maxStrLenBytes, Nat.le_of_lt hlt]
    have hshort : ¬ s.length ≥ maxConfigBufferSizeBytes := Nat.not_le.mpr hlt
    rw [hcopied]
    dsimp only
    rw [if_neg hshort]
    refine .item _ (v s) (by simp [homitted, hstring]) (by rw [hvalue, hstring, Option.map_some])
      ?_ (hitem s)
    intro s' hs'
    rw [hbytes s s' hs']
    omega

theorem fetch_value (h : Parses cbor) (hinit : cbor.parserInit it = true)
    (hlen : it.length ≤ maxStrLenBytes) (htype : OfType cbor valueType it) :
    FetchedValue valueType it (fetch cbor valueType it) := by
  cases valueType with
  | uint32 => exact fetch_uint32 h hinit htype
  | int32 => exact fetch_int32 h hinit htype
  | float => exact fetch_float h hinit htype
  | str =>
    have htext : cbor.type it = .textString := htype
    obtain ⟨⟨head, hhead, hmajor⟩, hcopy⟩ := h.strings.text it hinit htext
    rw [fetch, if_neg (not_not.mpr htext), hcopy]
    exact fetch_string hlen Iff.rfl (value?_text hhead hmajor) (by simp) fun s => rfl
  | bytes =>
    have hbyteString : cbor.type it = .byteString := htype
    obtain ⟨⟨head, hhead, hmajor⟩, hcopy⟩ := h.strings.bytes it hinit hbyteString
    rw [fetch, if_neg (not_not.mpr hbyteString), hcopy]
    exact fetch_string hlen Iff.rfl (value?_bytes hhead hmajor) (by simp) fun s => rfl
  | array => exact .raw trivial

end

end BmCore.Middleware
