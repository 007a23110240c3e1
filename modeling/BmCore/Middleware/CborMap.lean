import BmCore.Middleware.CborServiceHelper

/-!
# The map and the store

In a reachable partition every value is got, so that the loops are left early in no case. A map with
a value missing is not closed, and one that is too large is whole in the second round. The bytes are
a map of the stored values unless a value is narrowed to 32 bits or is found under the name of
another key; and TinyCBOR must not be asked for a value of another type than that in the slot.
-/
namespace BmCore.Middleware
open Library BmCore.Configuration Cbor

/-! ## The loop -/

/-- The key as it is encoded. -/
def keyItem (key : ConfigKey) : CborItem := .text (chars key.keyLen key.keyBuf.bytes)

/-- The value that is got for a key is one that TinyCBOR accepts. -/
structure Got (cbor : TinyCbor) (p : ConfigPartition) (key : ConfigKey) (it : List UInt8) :
    Prop where
  got : getConfigCbor cbor p key.keyBuf.bytes key.keyLen maxStrLenBytes = some it
  init : cbor.parserInit it = true
  valid : cbor.type it ≠ .invalid
  length : it.length ≤ maxStrLenBytes

/-- The item that is encoded for a key. -/
def entryItem (cbor : TinyCbor) (p : ConfigPartition) (key : ConfigKey) : Option CborItem :=
  match (getConfigCbor cbor p key.keyBuf.bytes key.keyLen maxStrLenBytes).map
      (fetch cbor key.valueType) with
  | some (.item item) => some item
  | _ => none

/-- The keys with their items. -/
def entriesBytes (cbor : TinyCbor) (p : ConfigPartition) (keys : List ConfigKey) : List UInt8 :=
  keys.flatMap fun key =>
    (keyItem key).encoded ++ ((entryItem cbor p key).map CborItem.encoded).getD []

section
variable {cbor : TinyCbor} {enc : Encoding} {p : ConfigPartition} {key : ConfigKey}
  {keys : List ConfigKey} {it : List UInt8} {s : MapLoop} {size : Nat} {bs : List UInt8}

/-- Appending fails for lack of room only. -/
theorem Appends.goesOn {encoder : CborEncoder} {result : CborError × CborEncoder}
    (h : Appends encoder bs result) (hbs : bs ≠ []) : result.1.goesOn = true := by
  cases hneeded : encoder.bytesNeeded with
  | none =>
    rcases Nat.lt_or_ge encoder.room bs.length with hlt | hle
    · rw [(h.full hneeded hlt).1]
      rfl
    · rw [(h.fits hneeded hle).1]
      rfl
  | some needed =>
    rw [(h.more needed hneeded hbs).1]
    rfl

/-- The loop for a key whose value is got. -/
theorem encodeEntry_got (hcorrect : enc.Correct) (hgot : Got cbor p key it) :
    encodeEntry cbor enc p key s = match fetch cbor key.valueType it with
      | .undefined => .undefined
      | .failed =>
        .left ⟨(enc.encode s.map (keyItem key)).2, (enc.encode s.map (keyItem key)).1, it⟩
      | .skipped =>
        .next ⟨(enc.encode s.map (keyItem key)).2, (enc.encode s.map (keyItem key)).1, it⟩
      | .item item => .next ⟨(enc.encode (enc.encode s.map (keyItem key)).2 item).2,
          (enc.encode (enc.encode s.map (keyItem key)).2 item).1, it⟩
      | .raw => .next ⟨(enc.encode s.map (keyItem key)).2.copyRaw it,
          (enc.encode s.map (keyItem key)).1, it⟩ := by
  have hkey := (hcorrect.encode s.map (keyItem key)).1.goesOn (encoded_ne_nil _)
  have hitem : ∀ item, (enc.encode (enc.encode s.map (keyItem key)).2 item).1.goesOn = true :=
    fun item => (hcorrect.encode _ item).1.goesOn (encoded_ne_nil _)
  unfold encodeEntry
  rw [keyItem] at hkey hitem ⊢
  simp only [hkey, Bool.not_true, Bool.false_eq_true, if_false, hgot.got, Option.any_some,
    hgot.init, Option.getD_some, hgot.valid]
  cases fetch cbor key.valueType it <;> simp only [hitem, if_true]

@[simp] theorem copyRaw_remaining (map : CborEncoder) (bs : List UInt8) :
    (map.copyRaw bs).remaining = map.remaining := by
  unfold CborEncoder.copyRaw
  split <;> rfl

/-- A key whose value is of its type: the loop goes on, with two items less to come if the value is
encoded. -/
theorem encodeEntry_ofType (hparses : Parses cbor) (hcorrect : enc.Correct)
    (hgot : Got cbor p key it) (htype : OfType cbor key.valueType it) :
    ∃ t, encodeEntry cbor enc p key s = .next t ∧ t.err.goesOn = true ∧
      ((Omitted key.valueType it ∧ t.map.remaining = s.map.remaining - 1) ∨
      (¬ Omitted key.valueType it ∧ t.map.remaining = s.map.remaining - 2)) := by
  have hkey := (hcorrect.encode s.map (keyItem key)).1.goesOn (encoded_ne_nil _)
  have hcount := (hcorrect.encode s.map (keyItem key)).2
  have hentry := encodeEntry_got (s := s) hcorrect hgot
  have hvalue := fetch_value hparses hgot.init hgot.length htype
  generalize fetch cbor key.valueType it = fetched at hvalue hentry
  cases hvalue with
  | skipped homitted => exact ⟨_, hentry, hkey, .inl ⟨homitted, hcount⟩⟩
  | raw homitted => exact ⟨_, hentry, hkey, .inl ⟨homitted, by rw [copyRaw_remaining, hcount]⟩⟩
  | item item v hfound hv hshort hitem =>
    refine ⟨_, hentry, (hcorrect.encode _ item).1.goesOn (encoded_ne_nil _),
      .inr ⟨hfound, ?_⟩⟩
    rw [(hcorrect.encode _ item).2, hcount]
    omega

/-- TinyCBOR is asked for a value of another type as soon as one is there. -/
theorem encodeEntries_undefined (hparses : Parses cbor) (hcorrect : enc.Correct)
    (hgot : ∀ key ∈ keys, ∃ it, Got cbor p key it)
    (hother : ∃ key ∈ keys, ∃ it, Got cbor p key it ∧ ¬ OfType cbor key.valueType it) :
    encodeEntries cbor enc p keys s = none := by
  induction keys generalizing s with
  | nil => simp at hother
  | cons key keys ih =>
    obtain ⟨it, hit⟩ := hgot key List.mem_cons_self
    rw [encodeEntries]
    by_cases htype : OfType cbor key.valueType it
    · obtain ⟨t, hentry, -⟩ := encodeEntry_ofType (s := s) hparses hcorrect hit htype
      rw [hentry]
      refine ih (fun key hkey => hgot key (List.mem_cons_of_mem _ hkey)) ?_
      obtain ⟨other, hmem, it', hit', hnot⟩ := hother
      rcases List.mem_cons.mp hmem with rfl | hmem
      · obtain rfl := Option.some.inj (hit.got.symm.trans hit'.got)
        exact absurd htype hnot
      · exact ⟨other, hmem, it', hit', hnot⟩
    · rw [encodeEntry_got hcorrect hit, fetch_undefined htype]

/-- Items are missing behind the loop if a value has not been encoded. -/
theorem encodeEntries_remaining (hparses : Parses cbor) (hcorrect : enc.Correct)
    (hgot : ∀ key ∈ keys, ∃ it, Got cbor p key it ∧ OfType cbor key.valueType it)
    (hremaining : 2 * keys.length < s.map.remaining) (herr : s.err.goesOn = true) :
    ∃ t, encodeEntries cbor enc p keys s = some t ∧ t.err.goesOn = true ∧
      s.map.remaining ≤ t.map.remaining + 2 * keys.length ∧
      ((∃ key ∈ keys, ∃ it, Got cbor p key it ∧ Omitted key.valueType it) →
        s.map.remaining < t.map.remaining + 2 * keys.length) := by
  induction keys generalizing s with
  | nil => exact ⟨s, rfl, herr, by simp, by simp⟩
  | cons key keys ih =>
    obtain ⟨it, hit, htype⟩ := hgot key List.mem_cons_self
    obtain ⟨t, hentry, hterr, hcount⟩ := encodeEntry_ofType (s := s) hparses hcorrect hit htype
    rw [List.length_cons] at hremaining ⊢
    have hrest : 2 * keys.length < t.map.remaining := by omega
    obtain ⟨u, hu, huerr, hle, hlt⟩ :=
      ih (fun key hkey => hgot key (List.mem_cons_of_mem _ hkey)) hrest hterr
    rw [encodeEntries, hentry]
    refine ⟨u, hu, huerr, by omega, ?_⟩
    rintro ⟨other, hmem, it', hit', homitted⟩
    rcases List.mem_cons.mp hmem with rfl | hmem
    · obtain rfl := Option.some.inj (hit.got.symm.trans hit'.got)
      have hone := hcount.resolve_right fun h => h.1 homitted
      omega
    · have hless := hlt ⟨other, hmem, it', hit', homitted⟩
      omega

/-- All values are encoded. -/
theorem encodeEntries_items (hparses : Parses cbor) (hcorrect : enc.Correct)
    (hgot : ∀ key ∈ keys, ∃ it, Got cbor p key it ∧ OfType cbor key.valueType it ∧
      ¬ Omitted key.valueType it) (hgiven : Given s.map size bs) (herr : s.err.goesOn = true) :
    ∃ t, encodeEntries cbor enc p keys s = some t ∧ t.err.goesOn = true ∧
      Given t.map size (bs ++ entriesBytes cbor p keys) ∧
      t.map.remaining = s.map.remaining - 2 * keys.length := by
  induction keys generalizing s bs with
  | nil => exact ⟨s, rfl, herr, by simpa [entriesBytes] using hgiven, by simp⟩
  | cons key keys ih =>
    obtain ⟨it, hit, htype, hfound⟩ := hgot key List.mem_cons_self
    obtain ⟨item, hfetch⟩ : ∃ item, fetch cbor key.valueType it = .item item := by
      have hvalue := fetch_value hparses hit.init hit.length htype
      generalize fetch cbor key.valueType it = fetched at hvalue
      cases hvalue with
      | skipped homitted => exact absurd homitted hfound
      | raw homitted => exact absurd homitted hfound
      | item item => exact ⟨item, rfl⟩
    have hentry := encodeEntry_got (s := s) hcorrect hit
    rw [hfetch] at hentry
    have hkey := (hcorrect.encode s.map (keyItem key)).1.given hgiven (encoded_ne_nil _)
    obtain ⟨hgiven', herr'⟩ := (hcorrect.encode (enc.encode s.map (keyItem key)).2 item).1.given
      hkey.1 (encoded_ne_nil _)
    obtain ⟨t, ht, hterr, htgiven, htcount⟩ :=
      ih (fun key hkey => hgot key (List.mem_cons_of_mem _ hkey)) (s := ⟨_, _, it⟩) hgiven' herr'
    have hbytes : entriesBytes cbor p (key :: keys) =
        (keyItem key).encoded ++ item.encoded ++ entriesBytes cbor p keys := by
      simp [entriesBytes, entryItem, hit.got, hfetch]
    rw [encodeEntries, hentry]
    refine ⟨t, ht, hterr, ?_, ?_⟩
    · rw [hbytes]
      simpa [List.append_assoc] using htgiven
    · rw [htcount, (hcorrect.encode _ item).2, (hcorrect.encode _ _).2, List.length_cons]
      omega

/-! ## Rounds -/

/-- The map with all entries. -/
def wholeMap (cbor : TinyCbor) (p : ConfigPartition) : List UInt8 :=
  encodeHead 5 p.numKeys ++ entriesBytes cbor p (storedKeys p)

theorem length_storedKeys (p : ConfigPartition) : (storedKeys p).length = p.numKeys := by
  simp [storedKeys]

/-- The encoder of the map at the start of a round. -/
theorem createMap_init (hcorrect : enc.Correct) (size n : Nat) :
    Given (enc.createMap (enc.init size) n).2 size (encodeHead 5 n) ∧
    (enc.createMap (enc.init size) n).1.goesOn = true ∧
    (enc.createMap (enc.init size) n).2.remaining = 2 * n + 1 := by
  obtain ⟨hwritten, hroom, hneeded⟩ := hcorrect.init size
  have hinit : Given (enc.init size) size [] := by
    simp [Given, hneeded, hwritten, hroom]
  obtain ⟨happends, hcount⟩ := hcorrect.createMap (enc.init size) n
  obtain ⟨hgiven, herr⟩ := happends.given hinit (encodeHead_ne_nil _ _)
  exact ⟨hgiven, herr, hcount⟩

theorem mapRound_undefined (hparses : Parses cbor) (hcorrect : enc.Correct)
    (hgot : ∀ key ∈ storedKeys p, ∃ it, Got cbor p key it)
    (hother : ∃ key ∈ storedKeys p, ∃ it, Got cbor p key it ∧ ¬ OfType cbor key.valueType it)
    (size : Nat) (it : List UInt8) : mapRound cbor enc p size it = .undefined := by
  obtain ⟨-, herr, -⟩ := createMap_init hcorrect size p.numKeys
  simp [mapRound, herr, encodeEntries_undefined hparses hcorrect hgot hother]

/-- A map with a value missing is not closed. -/
theorem mapRound_omitted (hparses : Parses cbor) (hcorrect : enc.Correct)
    (hgot : ∀ key ∈ storedKeys p, ∃ it, Got cbor p key it ∧ OfType cbor key.valueType it)
    (homitted : ∃ key ∈ storedKeys p, ∃ it, Got cbor p key it ∧ Omitted key.valueType it)
    (size : Nat) (it : List UInt8) : mapRound cbor enc p size it = .null := by
  obtain ⟨-, herr, hcount⟩ := createMap_init hcorrect size p.numKeys
  obtain ⟨t, ht, hterr, -, hmissing⟩ := encodeEntries_remaining
    (s := ⟨(enc.createMap (enc.init size) p.numKeys).2, _, it⟩) hparses hcorrect hgot
    (by rw [length_storedKeys, hcount]; omega) herr
  have hlt := hmissing homitted
  rw [length_storedKeys, hcount] at hlt
  have hclose := (hcorrect.closeContainer t.map).1
  rw [if_neg (by omega), if_pos (by omega)] at hclose
  simp only [mapRound, herr, Bool.not_true, Bool.false_eq_true, if_false, ht, hterr, if_true,
    hclose]

/-- With all values encoded, the map is whole or the encoder knows how much is missing. -/
theorem mapRound_items (hparses : Parses cbor) (hcorrect : enc.Correct)
    (hgot : ∀ key ∈ storedKeys p, ∃ it, Got cbor p key it ∧ OfType cbor key.valueType it ∧
      ¬ Omitted key.valueType it) (size : Nat) (it : List UInt8) :
    ((wholeMap cbor p).length ≤ size ∧ mapRound cbor enc p size it = .buffer (wholeMap cbor p)) ∨
    (size < (wholeMap cbor p).length ∧
      ∃ it', mapRound cbor enc p size it = .retry (wholeMap cbor p).length it') := by
  obtain ⟨hgiven, herr, hcount⟩ := createMap_init hcorrect size p.numKeys
  obtain ⟨t, ht, hterr, htgiven, htcount⟩ := encodeEntries_items
    (s := ⟨(enc.createMap (enc.init size) p.numKeys).2, _, it⟩) hparses hcorrect hgot hgiven herr
  rw [length_storedKeys, hcount, Nat.add_sub_cancel_left] at htcount
  obtain ⟨hclose, hwritten, hneeded⟩ := hcorrect.closeContainer t.map
  rw [if_neg (by omega), if_neg (by omega)] at hclose
  rw [← wholeMap, Given] at htgiven
  by_cases hfits : (wholeMap cbor p).length ≤ size
  · rw [if_pos hfits] at htgiven
    obtain ⟨hnone, hbytes, -⟩ := htgiven
    refine .inl ⟨hfits, ?_⟩
    simp [mapRound, herr, ht, hterr, hclose, hnone, hwritten, hbytes]
  · rw [if_neg hfits] at htgiven
    refine .inr ⟨by omega, t.it, ?_⟩
    simp only [mapRound, herr, Bool.not_true, Bool.false_eq_true, if_false, ht, hterr, if_true,
      hclose, htgiven, Option.isSome_some, hneeded, Option.getD_some]
    rw [Nat.add_sub_cancel' (by omega)]

end

/-! ## The slots of a reachable partition -/

/-- TinyCBOR accepts what is in the slots of the keys. -/
def SlotsParse (cbor : TinyCbor) (p : ConfigPartition) : Prop :=
  ∀ i < p.numKeys, cbor.parserInit (p.values i).bytes = true ∧
    cbor.type (p.values i).bytes ≠ .invalid

section
variable {cbor : TinyCbor} {p : ConfigPartition} {old new : ConfigValue}

theorem slotsParse_head (hparses : Parses cbor) (item : CborItem) (r : List UInt8) :
    cbor.parserInit (item.encoding.1 ++ r) = true ∧ cbor.type (item.encoding.1 ++ r) ≠ .invalid :=
  ⟨hparses.first.init item r, hparses.first.type item r⟩

theorem slotsParse_stores (hparses : Parses cbor) {call : SetCall}
    (h : Stores cbor old new call) :
    cbor.parserInit new.bytes = true ∧ cbor.type new.bytes ≠ .invalid := by
  cases call with
  | typed item =>
    have hencode : cbor.encode item old = (new, true) := h
    rw [hparses.first.encode] at hencode
    have hbytes := writeItem_ok (congrArg Prod.snd hencode)
    rw [hencode, List.append_assoc] at hbytes
    rw [hbytes]
    exact slotsParse_head hparses item _
  | cbor value =>
    obtain ⟨hsize, hinit, htype, rfl⟩ := h
    rw [old.put_bytes hsize, hparses.header.type _ _ hinit]
    refine ⟨hparses.header.init _ _ hinit, fun hinvalid => ?_⟩
    rw [hinvalid] at htype
    cases htype

theorem SlotsParse.update (h : SlotsParse cbor p) {idx : Nat} {v : ConfigValue}
    (hv : cbor.parserInit v.bytes = true ∧ cbor.type v.bytes ≠ .invalid) {i : Nat}
    (hi : i < p.numKeys ∨ i = idx) :
    cbor.parserInit (Function.update p.values idx v i).bytes = true ∧
      cbor.type (Function.update p.values idx v i).bytes ≠ .invalid := by
  rcases eq_or_ne i idx with rfl | hne
  · rwa [Function.update_self]
  · rw [Function.update_of_ne hne]
    exact h i (hi.resolve_right hne)

theorem SlotsParse.set (hparses : Parses cbor) {info : ConfigInfo} {key : List UInt8}
    {keyLen : Nat} {call : SetCall} {result : ConfigInfo × Bool}
    (hset : Sets cbor info key keyLen call result) (h : SlotsParse cbor info.ramBuffer) :
    SlotsParse cbor result.1.ramBuffer := by
  cases hset with
  | refused => exact h
  | abandoned k v absent =>
    intro i hi
    have hi' : i < info.ramBuffer.numKeys := hi
    rw [writeEntry_values, Function.update_of_ne (by omega)]
    exact h i hi'
  | overrun item idx typed keyLen_le room found fails =>
    have hbytes := hparses.first.encode item (info.ramBuffer.values idx)
    rw [hbytes] at fails
    obtain ⟨-, hhead⟩ := writeItem_overrun (encoding_length_le item) fails
    intro i hi
    dsimp only
    rw [writeKeyBuf_eq, writeValue_writeEntry]
    refine h.update ?_ (.inl hi)
    rw [hbytes, hhead]
    exact slotsParse_head hparses item _
  | replaced idx k v keyLen_le found keyLen_eq keyBuf stores =>
    exact fun i hi => h.update (slotsParse_stores hparses stores) (.inl hi)
  | appended k v keyLen_le absent valid room keyLen_eq keyBuf stores =>
    exact fun i hi => h.update (slotsParse_stores hparses stores) (Nat.lt_succ_iff_lt_or_eq.mp hi)

theorem slotsParse_invariant (hparses : Parses cbor) : StoreInvariant cbor (SlotsParse cbor) where
  empty p hempty i hi := by omega
  checksum p crc32 h := h
  op info op h := by
    cases op with
    | set key keyLen call => exact .set hparses (setCall_sets cbor info key keyLen call) h
    | remove key keyLen =>
      rcases removeKey_cases info key keyLen with
        ⟨-, hremove⟩ | ⟨idx, p, -, hremove, hnum, -, hvalues⟩
      · rw [storeOp, hremove]
        exact h
      · rw [storeOp, hremove]
        intro i hi
        have hi' : i < p.numKeys := hi
        rw [hvalues i hi]
        refine h _ ?_
        unfold skip
        split <;> omega
    | clear => exact fun i hi => absurd hi (Nat.not_lt_zero i)

/-- The slot that is got for the key with an index. -/
def slotGot (p : ConfigPartition) (i : Nat) : Option ConfigValue :=
  slotOf p (p.keys i).keyBuf.bytes (p.keys i).keyLen

/-- Every key finds a key of its name. -/
theorem exists_got (hsound : Sound p) (hslots : SlotsParse cbor p) {i : Nat}
    (hi : i < p.numKeys) : ∃ j < p.numKeys,
      findKeyIdx p (p.keys i).keyBuf.bytes (p.keys i).keyLen = some j ∧
      slotGot p i = some (p.values j) ∧ Got cbor p (p.keys i) (p.values j).bytes := by
  obtain ⟨j, hj⟩ : ∃ j, findKeyIdx p (p.keys i).keyBuf.bytes (p.keys i).keyLen = some j := by
    rw [← Option.ne_none_iff_exists']
    intro hnone
    exact findKeyIdx_eq_none.mp hnone i hi rfl
  have hlt := (findKeyIdx_eq_some.mp hj).1
  have hslot : slotGot p i = some (p.values j) := by rw [slotGot, slotOf, hj, Option.map_some]
  obtain ⟨hinit, hvalid⟩ := hslots j hlt
  refine ⟨j, hlt, hj, hslot, ?_, hinit, hvalid, (p.values j).length_eq.le⟩
  have hit := (prepareCborParser_eq_some cbor).mpr ⟨hsound.keyLen_le i hi, hslot, hinit⟩
  rw [getConfigCbor_eq, hit]
  simp [hvalid, maxStrLenBytes, maxConfigBufferSizeBytes]

end

/-! ## The result -/

/-- A result is a map with one entry for each stored key, in order, with the value in its slot. -/
def MapLaw (p : ConfigPartition) : MapResult → Prop
  | .undefined => False
  | .null => True
  | .buffer bytes => bytes ≠ [] → ∃ entries, map? bytes = some entries ∧
      List.Forall₂ (fun i e => e.1 = itemValue (keyItem (p.keys i)) ∧
        value? (p.values i).bytes = some e.2) (List.range p.numKeys) entries

/-- What is found under the name of a key, narrowed to its type, is what is in its slot. -/
def Kept (p : ConfigPartition) (i : Nat) : Prop :=
  ∀ j, findKeyIdx p (p.keys i).keyBuf.bytes (p.keys i).keyLen = some j →
    if j = i then ∀ n, value? (p.values i).bytes = some (.integer n) →
      InRange (p.keys i).valueType n
    else value? (p.values i).bytes =
      (value? (p.values j).bytes).map (narrowed (p.keys i).valueType)

section
variable {cbor : TinyCbor} {enc : Encoding} {p : ConfigPartition}

theorem mem_storedKeys {key : ConfigKey} :
    key ∈ storedKeys p ↔ ∃ i < p.numKeys, p.keys i = key := by
  simp [storedKeys]

/-- The entries of the map, read back. -/
theorem entries?_entriesBytes {keys : List ConfigKey}
    (hlen : ∀ key ∈ keys, key.keyLen ≤ maxKeyLenBytes)
    (hitems : ∀ key ∈ keys, ∃ item, entryItem cbor p key = some item ∧
      ∀ s, item = .text s ∨ item = .bytes s → s.length < 2 ^ 64) :
    ∃ entries, entries? keys.length (entriesBytes cbor p keys) = some (entries, []) ∧
      List.Forall₂ (fun key e => e.1 = itemValue (keyItem key) ∧
        (entryItem cbor p key).map itemValue = some e.2) keys entries := by
  induction keys with
  | nil => exact ⟨[], rfl, .nil⟩
  | cons key keys ih =>
    obtain ⟨entries, hentries, hall⟩ := ih (fun key hkey => hlen key (List.mem_cons_of_mem _ hkey))
      (fun key hkey => hitems key (List.mem_cons_of_mem _ hkey))
    obtain ⟨item, hitem, hshort⟩ := hitems key List.mem_cons_self
    have hkeyItem : IsItem (keyItem key).encoded (itemValue (keyItem key)) := by
      refine isItem_encoded _ fun s hs => ?_
      have hle := hlen key List.mem_cons_self
      rcases hs with hs | hs
      · obtain rfl := CborItem.text.inj hs
        rw [length_chars]
        simp only [maxKeyLenBytes] at hle
        omega
      · cases hs
    have hbytes : entriesBytes cbor p (key :: keys) =
        (keyItem key).encoded ++ item.encoded ++ entriesBytes cbor p keys := by
      simp [entriesBytes, hitem]
    refine ⟨(itemValue (keyItem key), itemValue item) :: entries, ?_,
      .cons ⟨rfl, by rw [hitem, Option.map_some]⟩ hall⟩
    rw [hbytes, List.length_cons]
    exact entries?_cons hkeyItem (isItem_encoded item hshort) hentries

/-- The item of a key whose value is got, of its type and encoded. -/
theorem entryItem_got (hparses : Parses cbor) {key : ConfigKey} {it : List UInt8}
    (hgot : Got cbor p key it) (htype : OfType cbor key.valueType it)
    (hfound : ¬ Omitted key.valueType it) : ∃ item v, entryItem cbor p key = some item ∧
      value? it = some v ∧ itemValue item = narrowed key.valueType v ∧
      ∀ s, item = .text s ∨ item = .bytes s → s.length < 2 ^ 64 := by
  have hvalue := fetch_value hparses hgot.init hgot.length htype
  rw [entryItem, hgot.got, Option.map_some]
  generalize fetch cbor key.valueType it = fetched at hvalue
  cases hvalue with
  | skipped homitted => exact absurd homitted hfound
  | raw homitted => exact absurd homitted hfound
  | item item v _ hv hshort hitem => exact ⟨item, v, rfl, hv, hitem, hshort⟩

/-- A key is kept exactly if its item stands for the value in its slot. -/
theorem kept_iff {i j : Nat} {v : Value} {item : CborItem}
    (hfind : findKeyIdx p (p.keys i).keyBuf.bytes (p.keys i).keyLen = some j)
    (hv : value? (p.values j).bytes = some v)
    (hitem : itemValue item = narrowed (p.keys i).valueType v) :
    Kept p i ↔ value? (p.values i).bytes = some (itemValue item) := by
  simp only [Kept, hfind, Option.some.injEq, forall_eq', hitem]
  split_ifs with hsame
  · subst hsame
    rw [hv, Option.some.injEq, eq_comm (a := v), narrowed_eq_iff]
    simp
  · rw [hv, Option.map_some]

theorem mapRounds_null {malloc : Nat → Bool} (h : ∀ size it, mapRound cbor enc p size it = .null)
    (it : List UInt8) {fuel : Nat} (hfuel : 2 ≤ fuel) :
    servicesCborAsMap cbor enc p malloc it fuel = some .null := by
  obtain ⟨fuel, rfl⟩ := Nat.exists_eq_add_of_le' hfuel
  rw [servicesCborAsMap, mapRounds, h]
  split <;> rfl

/-- Two rounds are enough for a map with all values. -/
theorem mapRounds_items (hparses : Parses cbor) (hcorrect : enc.Correct)
    (hgot : ∀ key ∈ storedKeys p, ∃ it, Got cbor p key it ∧ OfType cbor key.valueType it ∧
      ¬ Omitted key.valueType it) (malloc : Nat → Bool) (it : List UInt8) :
    ∃ result, (result = .null ∨ result = .buffer (wholeMap cbor p)) ∧
      ((∀ n, malloc n = true) → result = .buffer (wholeMap cbor p)) ∧
      ∀ fuel, 2 ≤ fuel → servicesCborAsMap cbor enc p malloc it fuel = some result := by
  have hround := mapRound_items hparses hcorrect hgot
  cases hfirst : malloc 0 with
  | false =>
    refine ⟨.null, .inl rfl, fun h => by simp [h 0] at hfirst, fun fuel hfuel => ?_⟩
    obtain ⟨fuel, rfl⟩ := Nat.exists_eq_add_of_le' hfuel
    simp [servicesCborAsMap, mapRounds, hfirst]
  | true =>
    rcases hround 512 it with ⟨-, hwhole⟩ | ⟨-, it', hretry⟩
    · refine ⟨.buffer (wholeMap cbor p), .inr rfl, fun _ => rfl, fun fuel hfuel => ?_⟩
      obtain ⟨fuel, rfl⟩ := Nat.exists_eq_add_of_le' hfuel
      simp [servicesCborAsMap, mapRounds, hfirst, hwhole]
    · cases hsecond : malloc 1 with
      | false =>
        refine ⟨.null, .inl rfl, fun h => by simp [h 1] at hsecond, fun fuel hfuel => ?_⟩
        obtain ⟨fuel, rfl⟩ := Nat.exists_eq_add_of_le' hfuel
        simp [servicesCborAsMap, mapRounds, hfirst, hretry, hsecond]
      | true =>
        have hwhole : mapRound cbor enc p (wholeMap cbor p).length it' =
            .buffer (wholeMap cbor p) := by
          rcases hround (wholeMap cbor p).length it' with ⟨-, hwhole⟩ | ⟨hlt, -⟩
          · exact hwhole
          · exact absurd hlt (lt_irrefl _)
        refine ⟨.buffer (wholeMap cbor p), .inr rfl, fun _ => rfl, fun fuel hfuel => ?_⟩
        obtain ⟨fuel, rfl⟩ := Nat.exists_eq_add_of_le' hfuel
        simp [servicesCborAsMap, mapRounds, hfirst, hretry, hsecond, hwhole]

/-- A relation on the pairs of two lists that is decided by the left ones. -/
theorem forall₂_iff_left {α β : Type} {R S : α → β → Prop} {C : α → Prop} {l : List α}
    {m : List β} (h : List.Forall₂ R l m) (hdecides : ∀ a ∈ l, ∀ b, R a b → (S a b ↔ C a)) :
    List.Forall₂ S l m ↔ ∀ a ∈ l, C a := by
  induction h with
  | nil => simp
  | cons hab _ ih =>
    rw [List.forall₂_cons, List.forall_mem_cons, hdecides _ List.mem_cons_self _ hab,
      ih fun a ha => hdecides a (List.mem_cons_of_mem _ ha)]

/-- The map of all values is read back as the stored one exactly if every key is kept. -/
theorem mapLaw_whole_iff (hparses : Parses cbor) (hsound : Sound p) (hslots : SlotsParse cbor p)
    (htype : ∀ i < p.numKeys, ∀ slot, slotGot p i = some slot →
      OfType cbor (p.keys i).valueType slot.bytes)
    (hfound : ∀ i < p.numKeys, ∀ slot, slotGot p i = some slot →
      ¬ Omitted (p.keys i).valueType slot.bytes) :
    MapLaw p (.buffer (wholeMap cbor p)) ↔ ∀ i < p.numKeys, Kept p i := by
  have hitems : ∀ i < p.numKeys, ∃ item, entryItem cbor p (p.keys i) = some item ∧
      (∀ s, item = .text s ∨ item = .bytes s → s.length < 2 ^ 64) ∧
      (Kept p i ↔ value? (p.values i).bytes = some (itemValue item)) := by
    intro i hi
    obtain ⟨j, hj, hfind, hslot, hgot⟩ := exists_got hsound hslots hi
    obtain ⟨item, v, hentry, hv, hitem, hshort⟩ :=
      entryItem_got hparses hgot (htype i hi _ hslot) (hfound i hi _ hslot)
    exact ⟨item, hentry, hshort, kept_iff hfind hv hitem⟩
  have hlen : ∀ key ∈ storedKeys p, key.keyLen ≤ maxKeyLenBytes := by
    intro key hkey
    obtain ⟨i, hi, rfl⟩ := mem_storedKeys.mp hkey
    exact hsound.keyLen_le i hi
  have hstored : ∀ key ∈ storedKeys p, ∃ item, entryItem cbor p key = some item ∧
      ∀ s, item = .text s ∨ item = .bytes s → s.length < 2 ^ 64 := by
    intro key hkey
    obtain ⟨i, hi, rfl⟩ := mem_storedKeys.mp hkey
    obtain ⟨item, hentry, hshort, -⟩ := hitems i hi
    exact ⟨item, hentry, hshort⟩
  obtain ⟨entries, hentries, hall⟩ := entries?_entriesBytes hlen hstored
  have hnum := hsound.numKeys_le
  have hmap : map? (wholeMap cbor p) = some entries := by
    refine map?_encode (by simp only [maxNumKv] at hnum; omega) ?_
    rw [← length_storedKeys p]
    exact hentries
  have hne : wholeMap cbor p ≠ [] := by simp [wholeMap, encodeHead_ne_nil]
  rw [storedKeys, List.forall₂_map_left_iff] at hall
  simp only [MapLaw, hmap, Option.some.injEq, exists_eq_left', hne, ne_eq, not_false_eq_true,
    true_imp_iff]
  have hdecided : ∀ i ∈ List.range p.numKeys, ∀ e : Value × Value,
      (e.1 = itemValue (keyItem (p.keys i)) ∧
        (entryItem cbor p (p.keys i)).map itemValue = some e.2) →
      ((e.1 = itemValue (keyItem (p.keys i)) ∧ value? (p.values i).bytes = some e.2) ↔
        Kept p i) := by
    rintro i hi e ⟨hkey, hvalue⟩
    obtain ⟨item, hentry, -, hkept⟩ := hitems i (List.mem_range.mp hi)
    rw [hentry, Option.map_some] at hvalue
    rw [hkept, ← hvalue]
    simp only [hkey, true_and]
  rw [forall₂_iff_left hall hdecided]
  simp only [List.mem_range]

/-- What holds of every slot that is found holds of what `get_config_cbor` gives for the keys. -/
theorem forall_storedKeys_got (hsound : Sound p) (hslots : SlotsParse cbor p)
    {P : ConfigKey → List UInt8 → Prop}
    (h : ∀ i < p.numKeys, ∀ slot, slotGot p i = some slot → P (p.keys i) slot.bytes) :
    ∀ key ∈ storedKeys p, ∃ it, Got cbor p key it ∧ P key it := by
  intro key hkey
  obtain ⟨i, hi, rfl⟩ := mem_storedKeys.mp hkey
  obtain ⟨j, -, -, hslot, hgot⟩ := exists_got hsound hslots hi
  exact ⟨_, hgot, h i hi _ hslot⟩

theorem exists_storedKeys_got (hsound : Sound p) (hslots : SlotsParse cbor p)
    {P : ConfigKey → List UInt8 → Prop}
    (h : ∃ i < p.numKeys, ∃ slot, slotGot p i = some slot ∧ P (p.keys i) slot.bytes) :
    ∃ key ∈ storedKeys p, ∃ it, Got cbor p key it ∧ P key it := by
  obtain ⟨i, hi, slot, hslot, hP⟩ := h
  obtain ⟨j, -, -, hslot', hgot⟩ := exists_got hsound hslots hi
  obtain rfl := Option.some.inj (hslot.symm.trans hslot')
  exact ⟨_, mem_storedKeys.mpr ⟨i, hi, rfl⟩, _, hgot, hP⟩

/-- With a value of another type, the first round that is run reads it as what it is not. -/
theorem mapRounds_undefined (hparses : Parses cbor) (hcorrect : enc.Correct) (hsound : Sound p)
    (hslots : SlotsParse cbor p) (hother : ∃ i < p.numKeys, ∃ slot, slotGot p i = some slot ∧
      ¬ OfType cbor (p.keys i).valueType slot.bytes) :
    servicesCborAsMap cbor enc p (fun _ => true) [] 2 = some .undefined := by
  have hgot : ∀ key ∈ storedKeys p, ∃ it, Got cbor p key it := by
    intro key hkey
    obtain ⟨i, hi, rfl⟩ := mem_storedKeys.mp hkey
    obtain ⟨j, -, -, -, hgot⟩ := exists_got hsound hslots hi
    exact ⟨_, hgot⟩
  have hround := mapRound_undefined hparses hcorrect hgot
    (exists_storedKeys_got hsound hslots hother) 512 []
  simp [servicesCborAsMap, mapRounds, hround]

/-- From any reachable partition, whatever can be allocated, the call ends within two rounds, and a
buffer that it returns is one map with an entry for each key in order, exactly if every value that
is found is of the type of its key and, where none is omitted, every key is kept. -/
theorem services_map_iff (hparses : Parses cbor) (hcorrect : enc.Correct) {s : System}
    (hs : Reachable cbor s) (partition : BmConfigPartition) :
    (∀ malloc it, ∃ result, (∀ fuel, 2 ≤ fuel → servicesCborAsMap cbor enc
        (s.configs partition).ramBuffer malloc it fuel = some result) ∧
      MapLaw (s.configs partition).ramBuffer result) ↔
    (∀ i < (s.configs partition).ramBuffer.numKeys, ∀ slot,
      slotGot (s.configs partition).ramBuffer i = some slot →
        OfType cbor ((s.configs partition).ramBuffer.keys i).valueType slot.bytes) ∧
    ((∃ i < (s.configs partition).ramBuffer.numKeys, ∃ slot,
      slotGot (s.configs partition).ramBuffer i = some slot ∧
        Omitted ((s.configs partition).ramBuffer.keys i).valueType slot.bytes) ∨
    ∀ i < (s.configs partition).ramBuffer.numKeys, Kept (s.configs partition).ramBuffer i) := by
  have hsound := hs.sound.configs partition
  have hslots := ((slotsParse_invariant hparses).reachable hs).configs partition
  generalize (s.configs partition).ramBuffer = p at hsound hslots
  by_cases htype : ∀ i < p.numKeys, ∀ slot, slotGot p i = some slot →
      OfType cbor (p.keys i).valueType slot.bytes
  · by_cases homitted : ∃ i < p.numKeys, ∃ slot, slotGot p i = some slot ∧
        Omitted (p.keys i).valueType slot.bytes
    · refine iff_of_true (fun malloc it => ?_) ⟨htype, .inl homitted⟩
      have hnull := mapRound_omitted hparses hcorrect (forall_storedKeys_got hsound hslots htype)
        (exists_storedKeys_got hsound hslots homitted)
      exact ⟨.null, fun fuel hfuel => mapRounds_null hnull it hfuel, trivial⟩
    · have hfound : ∀ i < p.numKeys, ∀ slot, slotGot p i = some slot →
          ¬ Omitted (p.keys i).valueType slot.bytes :=
        fun i hi slot hslot h => homitted ⟨i, hi, slot, hslot, h⟩
      have hrounds := mapRounds_items hparses hcorrect
        (forall_storedKeys_got hsound hslots fun i hi slot hslot =>
          ⟨htype i hi slot hslot, hfound i hi slot hslot⟩)
      have hlaw := mapLaw_whole_iff hparses hsound hslots htype hfound
      constructor
      · intro h
        refine ⟨htype, .inr (hlaw.mp ?_)⟩
        obtain ⟨result, hrun, hresult⟩ := h (fun _ => true) []
        obtain ⟨result', -, hwhole, hrun'⟩ := hrounds (fun _ => true) []
        obtain rfl := Option.some.inj ((hrun 2 le_rfl).symm.trans (hrun' 2 le_rfl))
        rwa [hwhole fun _ => rfl] at hresult
      · rintro ⟨-, h⟩ malloc it
        obtain ⟨result, hresult, -, hrun⟩ := hrounds malloc it
        refine ⟨result, hrun, ?_⟩
        rcases hresult with rfl | rfl
        · trivial
        · exact hlaw.mpr (h.resolve_left homitted)
  · refine iff_of_false (fun h => ?_) fun h => htype h.1
    obtain ⟨result, hrun, hresult⟩ := h (fun _ => true) []
    have hother : ∃ i < p.numKeys, ∃ slot, slotGot p i = some slot ∧
        ¬ OfType cbor (p.keys i).valueType slot.bytes := by
      simpa only [not_forall, exists_prop] using htype
    have hundefined := mapRounds_undefined hparses hcorrect hsound hslots hother
    obtain rfl := Option.some.inj ((hrun 2 le_rfl).symm.trans hundefined)
    exact hresult

end

theorem tinyCbor_parses : Parses tinyCbor :=
  ⟨tinyCbor_headerLocal, tinyCbor_headerFirst, tinyCbor_readsHeads, tinyCbor_readsSigned,
    tinyCbor_readsStrings⟩

/-- A value of each type, under keys of several lengths. -/
def mixedSystem : System :=
  [.store .user (.set [0x61] 1 (.typed (.uint 5))),
    .store .user (.set [0x62, 0x62] 2 (.typed (.int (-2)))),
    .store .user (.set [0x63, 0x63, 0x63] 3 (.typed (.text [0x68, 0x69]))),
    .store .user (.set [0x64] 1 (.typed (.bytes [1, 2]))),
    .store .user (.set [0x65, 0x65] 2 (.typed (.float 0x3F800000)))].foldl (step tinyCbor)
    freshSystem

/-- The map of the five values. -/
def mixedMap : List UInt8 :=
  [0xA5, 0x61, 0x61, 0x05, 0x62, 0x62, 0x62, 0x21, 0x63, 0x63, 0x63, 0x63, 0x62, 0x68, 0x69,
    0x61, 0x64, 0x42, 1, 2, 0x62, 0x65, 0x65, 0xFA, 0x3F, 0x80, 0, 0]

theorem services_map_mixed :
    (mixedSystem.configs .user).ramBuffer.numKeys = 5 ∧
      servicesCborAsMap tinyCbor tinyCborEncoding (mixedSystem.configs .user).ramBuffer
        (fun _ => true) [] 2 = some (.buffer mixedMap) ∧
      MapLaw (mixedSystem.configs .user).ramBuffer (.buffer mixedMap) := by
  have hnum : (mixedSystem.configs .user).ramBuffer.numKeys = 5 := by decide +kernel
  have hmap : servicesCborAsMap tinyCbor tinyCborEncoding (mixedSystem.configs .user).ramBuffer
      (fun _ => true) [] 2 = some (.buffer mixedMap) := by decide +kernel
  have htype : ∀ i < 5, ∀ slot ∈ slotGot (mixedSystem.configs .user).ramBuffer i,
      OfType tinyCbor ((mixedSystem.configs .user).ramBuffer.keys i).valueType slot.bytes := by
    decide +kernel
  have hfind : ∀ i < 5, findKeyIdx (mixedSystem.configs .user).ramBuffer
      ((mixedSystem.configs .user).ramBuffer.keys i).keyBuf.bytes
      ((mixedSystem.configs .user).ramBuffer.keys i).keyLen = some i := by decide +kernel
  have hrange : ∀ i < 5, ∀ v ∈ value? ((mixedSystem.configs .user).ramBuffer.values i).bytes,
      narrowed ((mixedSystem.configs .user).ramBuffer.keys i).valueType v = v := by
    decide +kernel
  have hkept : ∀ i < 5, Kept (mixedSystem.configs .user).ramBuffer i := by
    intro i hi j hj
    rw [hfind i hi, Option.some.injEq] at hj
    rw [if_pos hj.symm]
    exact fun n hn => narrowed_eq_iff.mp (hrange i hi _ hn) n rfl
  have hreachable : Reachable tinyCbor mixedSystem := ⟨freshSystem, _, freshSystem_initial, rfl⟩
  rw [← hnum] at htype hkept
  obtain ⟨result, hrun, hlaw⟩ := (services_map_iff tinyCbor_parses tinyCborEncoding_correct
    hreachable .user).mpr ⟨htype, .inr hkept⟩ (fun _ => true) []
  obtain rfl := Option.some.inj ((hrun 2 le_rfl).symm.trans hmap)
  exact ⟨hnum, hmap, hlaw⟩

/-- 2^32 + 5 is stored under the key a. -/
def wideSystem : System :=
  step tinyCbor freshSystem (.store .user (.set [0x61] 1 (.cbor [0x1B, 0, 0, 0, 1, 0, 0, 0, 5])))

/-- The map has 5. -/
theorem wideSystem_narrowed : Reachable tinyCbor wideSystem ∧
    servicesCborAsMap tinyCbor tinyCborEncoding (wideSystem.configs .user).ramBuffer
      (fun _ => true) [] 2 = some (.buffer [0xA1, 0x61, 0x61, 0x05]) ∧
    ¬ MapLaw (wideSystem.configs .user).ramBuffer (.buffer [0xA1, 0x61, 0x61, 0x05]) := by
  have hreachable : Reachable tinyCbor freshSystem := ⟨freshSystem, [], freshSystem_initial, rfl⟩
  refine ⟨hreachable.step _, by decide +kernel, fun h => ?_⟩
  obtain ⟨entries, hmap, hall⟩ := h (by decide)
  have hfive : map? [0xA1, 0x61, 0x61, 0x05] = some [(.text [0x61], .integer 5)] := by decide
  obtain rfl := Option.some.inj (hmap.symm.trans hfive)
  have hrange : List.range (wideSystem.configs .user).ramBuffer.numKeys = [0] := by decide +kernel
  have hstored : value? ((wideSystem.configs .user).ramBuffer.values 0).bytes =
      some (.integer (2 ^ 32 + 5)) := by decide +kernel
  rw [hrange, List.forall₂_cons, hstored] at hall
  exact absurd hall.1.2 (by decide)

end BmCore.Middleware
