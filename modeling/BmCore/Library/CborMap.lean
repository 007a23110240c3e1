import BmCore.Library.Cbor

/-!
# Maps of CBOR

A map of definite length has the number of its entries as the argument of its head. The keys and the
values follow in turn; here both are single items.
-/
namespace BmCore.Library.Cbor

/-- The number of bytes of the integer, string or float at the start of some bytes. -/
def itemSize? (b : List UInt8) : Option Nat :=
  match head? b with
  | some ⟨0, some _, size⟩ => some size
  | some ⟨1, some _, size⟩ => some size
  | some ⟨2, _, _⟩ => stringNeed b
  | some ⟨3, _, _⟩ => stringNeed b
  | some ⟨7, some _, 5⟩ => some 5
  | _ => none

/-- The item at the start of some bytes, and what follows it. -/
def item? (b : List UInt8) : Option (Value × List UInt8) :=
  (value? b).bind fun v => (itemSize? b).map fun size => (v, b.drop size)

/-- Keys with their values, and what follows them. -/
def entries? : Nat → List UInt8 → Option (List (Value × Value) × List UInt8)
  | 0, b => some ([], b)
  | n + 1, b =>
    (item? b).bind fun (key, b) => (item? b).bind fun (value, b) =>
      (entries? n b).map fun (entries, b) => ((key, value) :: entries, b)

/-- The entries of a map that is all of the bytes. -/
def map? (b : List UInt8) : Option (List (Value × Value)) :=
  match head? b with
  | some ⟨5, some n, size⟩ =>
    match entries? n (b.drop size) with
    | some (entries, []) => some entries
    | _ => none
  | _ => none

/-- The bytes are an item, whatever follows. -/
def IsItem (bs : List UInt8) (v : Value) : Prop := ∀ r, item? (bs ++ r) = some (v, r)

section
variable {bs key value rest : List UInt8} {k v : Value} {n : Nat}

/-- A number that is not negative. -/
theorem isItem_unsigned {arg : Nat} (harg : arg < 2 ^ 64) :
    IsItem (encodeHead 0 arg) (.integer arg) := by
  intro r
  have hhead := head?_encodeHead (show 0 < 8 by decide) harg r
  simp [item?, value?, itemSize?, hhead]

theorem isItem_negative {arg : Nat} (harg : arg < 2 ^ 64) :
    IsItem (encodeHead 1 arg) (.integer (-1 - arg)) := by
  intro r
  have hhead := head?_encodeHead (show 1 < 8 by decide) harg r
  simp [item?, value?, itemSize?, hhead]

theorem isItem_float {bits : Nat} (hbits : bits < 2 ^ 32) :
    IsItem (0xFA :: beBytes 4 bits) (.float bits) := by
  intro r
  have hlt : bits < 256 ^ 4 := lt_of_lt_of_le hbits (by norm_num)
  have hhead : head? (.ofNat (32 * 7 + 26) :: beBytes 4 bits ++ r) = some ⟨7, some bits, 1 + 4⟩ :=
    head?_beBytes (by omega) rfl (by omega) (by omega) hlt r
  have hhead' : head? (0xFA :: beBytes 4 bits ++ r) = some ⟨7, some bits, 5⟩ := hhead
  have hdrop : (0xFA :: beBytes 4 bits ++ r).drop 5 = r := List.drop_left' (by simp [beBytes])
  simp only [item?, value?, itemSize?, hhead', Option.bind_some, Option.map_some, hdrop]

/-- What is known of a string with its length before it. -/
theorem string_encode {major : Nat} (hmajor : major < 8) {s : List UInt8} (hs : s.length < 2 ^ 64)
    (r : List UInt8) :
    head? (encodeHead major s.length ++ s ++ r) =
      some ⟨major, some s.length, (encodeHead major s.length).length⟩ ∧
    stringNeed (encodeHead major s.length ++ s ++ r) =
      some (encodeHead major s.length ++ s).length := by
  have hhead := head?_encodeHead hmajor hs (s ++ r)
  rw [← List.append_assoc] at hhead
  refine ⟨hhead, ?_⟩
  rw [stringNeed, hhead]
  simp

theorem isItem_bytes {s : List UInt8} (hs : s.length < 2 ^ 64) :
    IsItem (encodeHead 2 s.length ++ s) (.bytes s) := by
  intro r
  obtain ⟨hhead, hneed⟩ := string_encode (show 2 < 8 by decide) hs r
  have hvalue := value?_bytes hhead rfl
  rw [string?_encode (by decide) hs] at hvalue
  simp only [item?, itemSize?, hvalue, hhead, hneed, Option.map_some, Option.bind_some,
    List.drop_left]

theorem isItem_text {s : List UInt8} (hs : s.length < 2 ^ 64) :
    IsItem (encodeHead 3 s.length ++ s) (.text s) := by
  intro r
  obtain ⟨hhead, hneed⟩ := string_encode (show 3 < 8 by decide) hs r
  have hvalue := value?_text hhead rfl
  rw [string?_encode (by decide) hs] at hvalue
  simp only [item?, itemSize?, hvalue, hhead, hneed, Option.map_some, Option.bind_some,
    List.drop_left]

theorem entries?_cons {entries : List (Value × Value)} {r : List UInt8} (hkey : IsItem key k)
    (hvalue : IsItem value v) (hrest : entries? n rest = some (entries, r)) :
    entries? (n + 1) (key ++ value ++ rest) = some ((k, v) :: entries, r) := by
  rw [entries?, List.append_assoc, hkey]
  simp [hvalue rest, hrest]

/-- A head with the number of entries, and the entries behind it. -/
theorem map?_encode {entries : List (Value × Value)} (hn : n < 2 ^ 64)
    (hbody : entries? n bs = some (entries, [])) : map? (encodeHead 5 n ++ bs) = some entries := by
  rw [map?, head?_encodeHead (by decide) hn]
  simp [hbody]

theorem length_chunks?_le {major fuel : Nat} {b s : List UInt8}
    (h : chunks? major fuel b = some s) : s.length ≤ b.length := by
  induction fuel generalizing b s with
  | zero => cases h
  | succ fuel ih =>
    unfold chunks? at h
    split at h
    · obtain rfl := Option.some.inj h
      exact Nat.zero_le _
    · split at h
      · rename_i m len size hhead
        split_ifs at h with hfits
        obtain ⟨s', hs', rfl⟩ := Option.map_eq_some_iff.mp h
        have hle := ih hs'
        simp only [List.length_drop, List.length_append, List.length_take] at hle ⊢
        omega
      · cases h

/-- A string is shorter than the bytes that it is read from. -/
theorem string?_length_lt {b s : List UInt8} (h : string? b = some s) : s.length < b.length := by
  unfold string? at h
  split at h
  · rename_i hhead
    obtain ⟨hone, hsize⟩ := head?_size hhead
    dsimp only at hone hsize
    split_ifs at h with hfits
    obtain rfl := Option.some.inj h
    simp only [List.length_take, List.length_drop]
    omega
  · rename_i hhead
    obtain ⟨hone, hsize⟩ := head?_size hhead
    dsimp only at hone hsize
    have hle := length_chunks?_le h
    rw [List.length_drop] at hle
    omega
  · cases h

end

end BmCore.Library.Cbor
