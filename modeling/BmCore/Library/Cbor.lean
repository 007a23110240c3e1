import BmCore.Library.Bytes

/-!
# Heads and strings of CBOR

The head of a data item has a major type and an argument, in one to nine bytes. A string has its
length as the argument of its head, or it is made of chunks, each with a head of its own, and ends
with a break. A reader that is given more bytes than there are in the item does not look at them.

`stringNeed` is the number of bytes a string needs that starts with some bytes, as far as these
say: what is missing of a head is counted as 0.
-/
namespace BmCore.Library.Cbor

/-- A big-endian number. -/
def beNat (bs : List UInt8) : Nat := leNat bs.reverse
def beBytes (k n : Nat) : List UInt8 := (leBytes k n).reverse

structure Head where
  major : Nat
  /-- There is none if the length is indefinite. -/
  arg : Option Nat
  /-- The number of bytes of the head. -/
  size : Nat
  deriving DecidableEq

/-- The number of bytes of the argument behind the initial byte. -/
def argSize (info : Nat) : Nat := if info < 24 then 0 else 2 ^ (info - 24)

/-- The head at the start of some bytes. -/
def head? : List UInt8 → Option Head
  | [] => none
  | x :: rest =>
    let info := x.toNat % 32
    if info < 24 then some ⟨x.toNat / 32, some info, 1⟩
    else if info < 28 then
      if argSize info ≤ rest.length then
        some ⟨x.toNat / 32, some (beNat (rest.take (argSize info))), 1 + argSize info⟩
      else none
    else if info = 31 then some ⟨x.toNat / 32, none, 1⟩
    else none

/-- The shortest head with an argument. -/
def encodeHead (major arg : Nat) : List UInt8 :=
  if arg < 24 then [.ofNat (32 * major + arg)]
  else if arg < 2 ^ 8 then .ofNat (32 * major + 24) :: beBytes 1 arg
  else if arg < 2 ^ 16 then .ofNat (32 * major + 25) :: beBytes 2 arg
  else if arg < 2 ^ 32 then .ofNat (32 * major + 26) :: beBytes 4 arg
  else .ofNat (32 * major + 27) :: beBytes 8 arg

/-- The chunks of a string, up to the break. Every chunk uses fuel. -/
def chunks? (major : Nat) : Nat → List UInt8 → Option (List UInt8)
  | 0, _ => none
  | fuel + 1, b =>
    if b.head? = some 0xFF then some []
    else match head? b with
      | some ⟨m, some len, size⟩ =>
        if m = major ∧ size + len ≤ b.length then
          (chunks? major fuel (b.drop (size + len))).map ((b.drop size).take len ++ ·)
        else none
      | _ => none

/-- The string at the start of some bytes. -/
def string? (b : List UInt8) : Option (List UInt8) :=
  match head? b with
  | some ⟨_, some len, size⟩ =>
    if size + len ≤ b.length then some ((b.drop size).take len) else none
  | some ⟨m, none, size⟩ => chunks? m b.length (b.drop size)
  | none => none

/-- The bytes that chunks need, with their break. -/
def chunksNeed (major : Nat) : Nat → List UInt8 → Option Nat
  | 0, _ => none
  | fuel + 1, b =>
    if b = [] ∨ b.head? = some 0xFF then some 1
    else match head? (b ++ List.replicate 8 0) with
      | some ⟨m, some len, size⟩ =>
        if m ≠ major then none
        else if size + len ≤ b.length then
          (chunksNeed major fuel (b.drop (size + len))).map (size + len + ·)
        else some (size + len + 1)
      | _ => none

def stringNeed (b : List UInt8) : Option Nat :=
  match head? b with
  | some ⟨_, some len, size⟩ => some (size + len)
  | some ⟨m, none, size⟩ => (chunksNeed m b.length (b.drop size)).map (size + ·)
  | none => none

/-- What a single item stands for; a float is given by its bits. -/
inductive Value where
  | integer (v : Int)
  | bytes (s : List UInt8)
  | text (s : List UInt8)
  | float (bits : Nat)
  deriving DecidableEq

/-- The value at the start of some bytes, if these are an integer, a string or a float of four
bytes. -/
def value? (b : List UInt8) : Option Value :=
  match head? b with
  | some ⟨0, some arg, _⟩ => some (.integer arg)
  | some ⟨1, some arg, _⟩ => some (.integer (-1 - arg))
  | some ⟨2, _, _⟩ => (string? b).map .bytes
  | some ⟨3, _, _⟩ => (string? b).map .text
  | some ⟨7, some bits, 5⟩ => some (.float bits)
  | _ => none

section Values
variable {b : List UInt8} {h : Head}

theorem value?_bytes (hb : head? b = some h) (hmajor : h.major = 2) :
    value? b = (string? b).map .bytes := by
  obtain ⟨major, arg, size⟩ := h
  obtain rfl : major = 2 := hmajor
  rw [value?, hb]
  cases arg <;> rfl

theorem value?_text (hb : head? b = some h) (hmajor : h.major = 3) :
    value? b = (string? b).map .text := by
  obtain ⟨major, arg, size⟩ := h
  obtain rfl : major = 3 := hmajor
  rw [value?, hb]
  cases arg <;> rfl

theorem value?_array (hb : head? b = some h) (hmajor : h.major = 4) : value? b = none := by
  obtain ⟨major, arg, size⟩ := h
  obtain rfl : major = 4 := hmajor
  rw [value?, hb]
  cases arg <;> rfl

end Values

/-! ## Heads -/

section Heads
variable {b r : List UInt8} {h : Head}

theorem head?_size (hb : head? b = some h) : 1 ≤ h.size ∧ h.size ≤ b.length := by
  cases b with
  | nil => simp [head?] at hb
  | cons x rest =>
    unfold head? at hb
    dsimp only at hb
    split at hb
    · obtain rfl := Option.some.inj hb
      simp
    split at hb
    · split at hb
      · obtain rfl := Option.some.inj hb
        simp only [List.length_cons]
        omega
      · simp at hb
    split at hb
    · obtain rfl := Option.some.inj hb
      simp
    · simp at hb

theorem argSize_le {info : Nat} (h : info < 28) : argSize info ≤ 8 := by
  unfold argSize
  split
  · omega
  · exact Nat.pow_le_pow_right (by omega) (by omega : info - 24 ≤ 3)

/-- The argument has as many bytes as there are behind the initial one, or is a part of it. -/
theorem head?_arg_lt {m arg size : Nat} (hb : head? b = some ⟨m, some arg, size⟩) :
    (size = 1 ∧ arg < 24) ∨ (size ≤ 9 ∧ arg < 256 ^ (size - 1)) := by
  cases b with
  | nil => simp [head?] at hb
  | cons x rest =>
    unfold head? at hb
    dsimp only at hb
    split at hb
    · rename_i hinfo
      simp only [Option.some.injEq, Head.mk.injEq] at hb
      omega
    split at hb
    · rename_i hinfo
      split at hb
      · rename_i hle
        simp only [Option.some.injEq, Head.mk.injEq] at hb
        obtain ⟨-, rfl, rfl⟩ := hb
        have hsize := argSize_le hinfo
        have hlt := leNat_lt (rest.take (argSize (x.toNat % 32))).reverse
        rw [List.length_reverse, List.length_take, Nat.min_eq_left hle] at hlt
        exact .inr ⟨by omega, by rwa [Nat.add_sub_cancel_left]⟩
      · simp at hb
    split at hb <;> simp at hb

/-- A head is read from its own bytes. -/
theorem head?_append (hb : head? b = some h) (r : List UInt8) : head? (b ++ r) = some h := by
  cases b with
  | nil => simp [head?] at hb
  | cons x rest =>
    unfold head? at hb ⊢
    dsimp only [List.cons_append] at hb ⊢
    split at hb
    · rwa [if_pos ‹_›]
    rw [if_neg ‹_›]
    split at hb
    · rw [if_pos ‹_›]
      split at hb
      · rename_i hle
        rw [if_pos (by rw [List.length_append]; omega), List.take_append_of_le_length hle, hb]
      · simp at hb
    · rwa [if_neg ‹_›]

/-- Bytes that are missing at the end of a number are least if they are 0. -/
theorem beNat_zeros_le (bs cs : List UInt8) :
    beNat (bs ++ List.replicate cs.length 0) ≤ beNat (bs ++ cs) := by
  have hzero : ∀ k, leNat (List.replicate k 0) = 0 := by
    intro k
    induction k with
    | zero => rfl
    | succ k ih => simp [List.replicate_succ, leNat, ih]
  simp only [beNat, List.reverse_append, leNat_append, List.reverse_replicate, hzero,
    List.length_replicate, List.length_reverse]
  omega

/-- A head that ends before the bytes do is there without what follows. -/
theorem head?_of_append (hb : head? (b ++ r) = some h) (hsize : h.size ≤ b.length) :
    head? b = some h := by
  cases b with
  | nil =>
    have hpos := (head?_size hb).1
    simp at hsize
    omega
  | cons x rest =>
    unfold head? at hb ⊢
    dsimp only [List.cons_append] at hb ⊢
    split at hb
    · rwa [if_pos ‹_›]
    rw [if_neg ‹_›]
    split at hb
    · rw [if_pos ‹_›]
      split at hb
      · obtain rfl := Option.some.inj hb
        have hle : argSize (x.toNat % 32) ≤ rest.length := by
          simp only [List.length_cons] at hsize
          omega
        rw [if_pos hle, List.take_append_of_le_length hle]
      · simp at hb
    · rwa [if_neg ‹_›]

/-- Bytes with no head, even if there are more of them. -/
theorem head?_none_append (hne : b ≠ []) (hb : head? (b ++ List.replicate 8 0) = none)
    (r : List UInt8) : head? (b ++ r) = none := by
  obtain ⟨x, rest, rfl⟩ := List.exists_cons_of_ne_nil hne
  unfold head? at hb ⊢
  dsimp only [List.cons_append] at hb ⊢
  split at hb
  · simp at hb
  rw [if_neg ‹_›]
  split at hb
  · rename_i hinfo
    have hle := argSize_le hinfo
    rw [if_pos (by simp; omega)] at hb
    simp at hb
  · rwa [if_neg ‹_›]

/-- Other bytes than 0 for what is missing of a head change only its argument, and this gets no
smaller. -/
theorem head?_arg_le {m len size : Nat} {h' : Head} (hne : b ≠ [])
    (hb : head? (b ++ List.replicate 8 0) = some ⟨m, some len, size⟩)
    (hr : head? (b ++ r) = some h') : ∃ len', len ≤ len' ∧ h' = ⟨m, some len', size⟩ := by
  obtain ⟨x, rest, rfl⟩ := List.exists_cons_of_ne_nil hne
  unfold head? at hb hr
  dsimp only [List.cons_append] at hb hr
  split at hb
  · rw [if_pos ‹_›, hb] at hr
    exact ⟨len, le_refl _, (Option.some.inj hr).symm⟩
  rw [if_neg ‹_›] at hr
  split at hb
  · rename_i hinfo
    have hle := argSize_le hinfo
    rw [if_pos hinfo] at hr
    rw [if_pos (by simp; omega)] at hb
    split at hr
    · rename_i hlong
      obtain ⟨rfl, hlen, rfl⟩ := Head.mk.inj (Option.some.inj hb)
      obtain rfl := Option.some.inj hlen
      refine ⟨_, ?_, (Option.some.inj hr).symm⟩
      generalize argSize (x.toNat % 32) = k at *
      have hzeros : (rest ++ List.replicate 8 0).take k =
          rest.take k ++ List.replicate (r.take (k - rest.length)).length 0 := by
        rw [List.take_append, List.take_replicate]
        congr 2
        rw [List.length_append] at hlong
        rw [List.length_take]
        omega
      rw [hzeros, List.take_append]
      exact beNat_zeros_le _ _
    · simp at hr
  · split at hb
    · simp at hb
    · simp at hb

theorem head?_indefinite {m size : Nat} (hne : b ≠ [])
    (hb : head? (b ++ List.replicate 8 0) = some ⟨m, none, size⟩) (r : List UInt8) :
    head? (b ++ r) = some ⟨m, none, size⟩ := by
  have hone : size = 1 := by
    obtain ⟨x, rest, rfl⟩ := List.exists_cons_of_ne_nil hne
    unfold head? at hb
    dsimp only [List.cons_append] at hb
    repeat' split at hb
    all_goals simp_all
  have hpos : 1 ≤ b.length := List.length_pos_of_ne_nil hne
  exact head?_append (head?_of_append hb (by simpa [hone] using hpos)) r

/-- A head with an argument of `k` bytes. -/
theorem head?_beBytes {major info k arg : Nat} (hmajor : major < 8) (hk : argSize info = k)
    (hlow : 24 ≤ info) (hhigh : info < 28) (hfits : arg < 256 ^ k) (r : List UInt8) :
    head? (.ofNat (32 * major + info) :: beBytes k arg ++ r) = some ⟨major, some arg, 1 + k⟩ := by
  have hbyte : (UInt8.ofNat (32 * major + info)).toNat = 32 * major + info := by
    rw [UInt8.toNat_ofNat']
    omega
  have hdiv : (32 * major + info) / 32 = major := by omega
  have hmod : (32 * major + info) % 32 = info := by omega
  have hlength : (beBytes k arg).length = k := by simp [beBytes]
  have hvalue : beNat (beBytes k arg) = arg := by
    rw [beNat, beBytes, List.reverse_reverse, leNat_leBytes hfits]
  simp only [List.cons_append, head?, hbyte, hdiv, hmod, if_neg (Nat.not_lt.mpr hlow),
    if_pos hhigh, hk]
  rw [if_pos (by rw [List.length_append, hlength]; omega), List.take_left' hlength, hvalue]

/-- A head that was written is read back. -/
theorem head?_encodeHead {major arg : Nat} (hmajor : major < 8) (harg : arg < 2 ^ 64)
    (r : List UInt8) :
    head? (encodeHead major arg ++ r) = some ⟨major, some arg, (encodeHead major arg).length⟩ := by
  have hlong : ∀ k info, argSize info = k → 24 ≤ info → info < 28 → arg < 256 ^ k →
      head? (.ofNat (32 * major + info) :: beBytes k arg ++ r) =
        some ⟨major, some arg, (UInt8.ofNat (32 * major + info) :: beBytes k arg).length⟩ := by
    intro k info hk hlow hhigh hfits
    rw [head?_beBytes hmajor hk hlow hhigh hfits, List.length_cons, Nat.add_comm]
    simp [beBytes]
  unfold encodeHead
  split
  · rename_i hsmall
    have hbyte : (UInt8.ofNat (32 * major + arg)).toNat = 32 * major + arg := by
      rw [UInt8.toNat_ofNat']
      omega
    have hdiv : (32 * major + arg) / 32 = major := by omega
    have hmod : (32 * major + arg) % 32 = arg := by omega
    simp only [List.cons_append, head?, hbyte, hdiv, hmod, if_pos hsmall]
    rfl
  split
  · exact hlong 1 24 rfl (by omega) (by omega) (by simpa using ‹_›)
  split
  · exact hlong 2 25 rfl (by omega) (by omega) (by simpa using ‹_›)
  split
  · exact hlong 4 26 rfl (by omega) (by omega) (by simpa using ‹_›)
  · exact hlong 8 27 rfl (by omega) (by omega) (by simpa using harg)

theorem encodeHead_length_le {major arg : Nat} : (encodeHead major arg).length ≤ 9 := by
  unfold encodeHead
  repeat' split
  all_goals simp [beBytes]

end Heads

/-! ## Strings -/

section Strings
variable {major : Nat} {b r r' : List UInt8}

/-- A head whose missing bytes are 0. -/
theorem head?_zeros {h : Head} (hb : head? (b ++ List.replicate 8 0) = some h) {k : Nat}
    (hk : h.size ≤ b.length + k) : head? (b ++ List.replicate k 0) = some h := by
  rcases Nat.le_total 8 k with h8 | h8
  · have hsplit : b ++ List.replicate k 0 =
        (b ++ List.replicate 8 0) ++ List.replicate (k - 8) (0 : UInt8) := by
      rw [List.append_assoc, List.replicate_append_replicate, Nat.add_sub_cancel' h8]
    rw [hsplit]
    exact head?_append hb _
  · have hsplit : b ++ List.replicate 8 0 =
        (b ++ List.replicate k 0) ++ List.replicate (8 - k) (0 : UInt8) := by
      rw [List.append_assoc, List.replicate_append_replicate, Nat.add_sub_cancel' h8]
    rw [hsplit] at hb
    exact head?_of_append hb (by simpa using hk)

theorem chunks?_nil (fuel : Nat) : chunks? major fuel [] = none := by
  cases fuel <;> simp [chunks?, head?]

/-- There are no chunks where no complete chunk is followed by more bytes. -/
theorem chunks?_eq_none (hbreak : b.head? ≠ some 0xFF)
    (hlast : ∀ len size, head? b = some ⟨major, some len, size⟩ → b.length ≤ size + len)
    (fuel : Nat) : chunks? major fuel b = none := by
  cases fuel with
  | zero => rfl
  | succ fuel =>
    rw [chunks?, if_neg hbreak]
    split
    · rename_i m len size hhead
      split
      · rename_i hchunk
        obtain ⟨rfl, -⟩ := hchunk
        rw [List.drop_eq_nil_of_le (hlast len size hhead), chunks?_nil]
        rfl
      · rfl
    · rfl

theorem chunks?_cons {len size : Nat} (hbreak : b.head? ≠ some 0xFF)
    (hhead : head? b = some ⟨major, some len, size⟩) (hle : size + len ≤ b.length) (fuel : Nat) :
    chunks? major (fuel + 1) b =
      (chunks? major fuel (b.drop (size + len))).map ((b.drop size).take len ++ ·) := by
  rw [chunks?, if_neg hbreak, hhead]
  simp [hle]

theorem head?_append_of_ne_nil (hne : b ≠ []) (r : List UInt8) : (b ++ r).head? = b.head? := by
  obtain ⟨x, b, rfl⟩ := List.exists_cons_of_ne_nil hne
  rfl

/-- No chunk is read from any continuation, or the same one from all. -/
theorem chunk_decided {g : Nat} (hnil : b ≠ []) (hbreak : b.head? ≠ some 0xFF)
    (hneed : ∀ d, chunksNeed major (g + 1) b = some d → d ≤ b.length ∨ b.length + r.length < d) :
    (∀ r'', r''.length = r.length → ∀ len size,
      head? (b ++ r'') = some ⟨major, some len, size⟩ → (b ++ r'').length ≤ size + len) ∨
    ∃ len size, head? b = some ⟨major, some len, size⟩ ∧ size + len ≤ b.length := by
  simp only [chunksNeed, hnil, hbreak, or_self, if_false] at hneed
  cases hpad : head? (b ++ List.replicate 8 0) with
  | none =>
    refine .inl fun r'' _ len size hhead => ?_
    rw [head?_none_append hnil hpad] at hhead
    simp at hhead
  | some h =>
    obtain ⟨m, arg, size⟩ := h
    rw [hpad] at hneed
    cases arg with
    | none =>
      refine .inl fun r'' _ len size hhead => ?_
      rw [head?_indefinite hnil hpad] at hhead
      simp at hhead
    | some len =>
      by_cases hm : m = major
      · subst hm
        simp only [ne_eq, not_true, if_false] at hneed
        by_cases hin : size + len ≤ b.length
        · exact .inr ⟨len, size, head?_of_append hpad (by simp only; omega), hin⟩
        · refine .inl fun r'' hr'' len' size' hhead => ?_
          have hmany := (hneed _ (by rw [if_neg hin])).resolve_left (by omega)
          obtain ⟨len'', hle, heq⟩ := head?_arg_le hnil hpad hhead
          simp only [Head.mk.injEq, Option.some.injEq] at heq
          rw [List.length_append]
          omega
      · refine .inl fun r'' _ len' size' hhead => ?_
        obtain ⟨len'', -, heq⟩ := head?_arg_le hnil hpad hhead
        simp only [Head.mk.injEq] at heq
        exact absurd heq.1.symm hm

/-- Two continuations give the same chunks if none of their bytes is needed, or more than there
are. -/
theorem chunks?_congr {g f : Nat} (hg : b.length < g) (hlength : r.length = r'.length)
    (hneed : ∀ d, chunksNeed major g b = some d → d ≤ b.length ∨ b.length + r.length < d) :
    chunks? major f (b ++ r) = chunks? major f (b ++ r') := by
  induction g generalizing f b with
  | zero => omega
  | succ g ih =>
    by_cases hnil : b = []
    · subst hnil
      have hone := hneed 1 (by simp [chunksNeed])
      simp only [List.length_nil] at hone
      obtain rfl : r = [] := List.eq_nil_of_length_eq_zero (by omega)
      obtain rfl : r' = [] := List.eq_nil_of_length_eq_zero (by omega)
      rfl
    have hfirst := head?_append_of_ne_nil hnil
    by_cases hbreak : b.head? = some 0xFF
    · cases f <;> simp [chunks?, hfirst, hbreak]
    have hnobreak : ∀ r, (b ++ r).head? ≠ some 0xFF := fun r => hfirst r ▸ hbreak
    rcases chunk_decided hnil hbreak hneed with hnone | ⟨len, size, hhere, hin⟩
    · rw [chunks?_eq_none (hnobreak r) (hnone r rfl), chunks?_eq_none (hnobreak r')
        (hnone r' hlength.symm)]
    cases f with
    | zero => rfl
    | succ f =>
      have hpos := (head?_size hhere).1
      have hle : ∀ r, size + len ≤ (b ++ r).length := by
        intro r
        rw [List.length_append]
        omega
      have htake : ∀ r, ((b ++ r).drop size).take len = (b.drop size).take len := by
        intro r
        rw [List.drop_append_of_le_length (by omega), List.take_append_of_le_length]
        rw [List.length_drop]
        omega
      have hpad := head?_append hhere (List.replicate 8 0)
      simp only [chunksNeed, hnil, hbreak, or_self, if_false, hpad, ne_eq, not_true, if_pos hin]
        at hneed
      rw [chunks?_cons (hnobreak r) (head?_append hhere r) (hle r),
        chunks?_cons (hnobreak r') (head?_append hhere r') (hle r'), htake, htake,
        List.drop_append_of_le_length hin, List.drop_append_of_le_length hin]
      congr 1
      refine ih ?_ fun d hd => ?_
      · rw [List.length_drop]
        simp only at hpos
        omega
      · have hd' := hneed _ (Option.map_eq_some_iff.mpr ⟨d, hd, rfl⟩)
        rw [List.length_drop]
        omega

/-- Where bytes are missing, the chunk that they begin has its least length if they are 0. -/
theorem chunksNeed_cases {g d : Nat} (hneed : chunksNeed major (g + 1) b = some d)
    (hmissing : b.length < d) : (b = [] ∧ d = 1) ∨ (b ≠ [] ∧ b.head? ≠ some 0xFF ∧ ∃ len size,
      head? (b ++ List.replicate 8 0) = some ⟨major, some len, size⟩ ∧
      ((size + len ≤ b.length ∧ ∃ d', chunksNeed major g (b.drop (size + len)) = some d' ∧
        d = size + len + d') ∨ (b.length < size + len ∧ d = size + len + 1))) := by
  rw [chunksNeed] at hneed
  by_cases hnil : b = []
  · rw [if_pos (.inl hnil)] at hneed
    exact .inl ⟨hnil, (Option.some.inj hneed).symm⟩
  have hpos := List.length_pos_of_ne_nil hnil
  by_cases hbreak : b.head? = some 0xFF
  · rw [if_pos (.inr hbreak)] at hneed
    have hone := Option.some.inj hneed
    omega
  refine .inr ⟨hnil, hbreak, ?_⟩
  rw [if_neg (not_or.mpr ⟨hnil, hbreak⟩)] at hneed
  split at hneed
  · rename_i m len size hpad
    split at hneed
    · simp at hneed
    rename_i hm
    rw [not_not] at hm
    subst hm
    refine ⟨len, size, hpad, ?_⟩
    split at hneed
    · rename_i hin
      obtain ⟨d', hd', rfl⟩ := Option.map_eq_some_iff.mp hneed
      exact .inl ⟨hin, d', hd', rfl⟩
    · exact .inr ⟨by omega, (Option.some.inj hneed).symm⟩
  · simp at hneed

/-- A string of chunks is not complete with zeros. -/
theorem chunks?_zeros {g d k : Nat} (hmajor : major ≠ 0) (hneed : chunksNeed major g b = some d)
    (hmissing : b.length < d) (hk : d ≤ b.length + k) (f : Nat) :
    chunks? major f (b ++ List.replicate k 0) = none := by
  have hzeros : ∀ f k, chunks? major f (List.replicate k 0) = none := by
    intro f k
    cases k with
    | zero => exact chunks?_nil f
    | succ k =>
      refine chunks?_eq_none (by simp [List.replicate_succ]) (fun len size hhead => ?_) f
      simp only [List.replicate_succ, head?, UInt8.reduceToNat, Nat.zero_mod, Nat.zero_div] at hhead
      simp only [Nat.reduceLT, if_true, Option.some.injEq, Head.mk.injEq] at hhead
      exact absurd hhead.1.symm hmajor
  induction g generalizing f b d with
  | zero => simp [chunksNeed] at hneed
  | succ g ih =>
    rcases chunksNeed_cases hneed hmissing with
      ⟨rfl, -⟩ | ⟨hnil, hbreak, len, size, hpad, hrest⟩
    · exact hzeros f k
    have hfirst := head?_append_of_ne_nil hnil (List.replicate k 0) ▸ hbreak
    have hle : size + len ≤ b.length + k := by omega
    have hhead := head?_zeros hpad (k := k) (by simp only; omega)
    cases f with
    | zero => rfl
    | succ f =>
      rw [chunks?_cons hfirst hhead (by simpa using hle), Option.map_eq_none_iff]
      rcases hrest with ⟨hin, d', hd', rfl⟩ | ⟨hout, rfl⟩
      · rw [List.drop_append_of_le_length hin]
        refine ih hd' ?_ ?_ f
        · rw [List.length_drop]
          omega
        · rw [List.length_drop]
          omega
      · rw [List.drop_append, List.drop_eq_nil_of_le (by omega), List.nil_append,
          List.drop_replicate]
        exact hzeros f _

/-- It is complete with zeros and a break. -/
theorem chunks?_break {g d : Nat} (hneed : chunksNeed major g b = some d) (hmissing : b.length < d)
    (rest : List UInt8) {f : Nat} (hf : d ≤ f) :
    (chunks? major f (b ++ (List.replicate (d - b.length - 1) 0 ++ 0xFF :: rest))).isSome =
      true := by
  induction g generalizing f b d with
  | zero => simp [chunksNeed] at hneed
  | succ g ih =>
    obtain ⟨f, rfl⟩ : ∃ f', f = f' + 1 := ⟨f - 1, by omega⟩
    rcases chunksNeed_cases hneed hmissing with
      ⟨rfl, rfl⟩ | ⟨hnil, hbreak, len, size, hpad, hrest⟩
    · simp [chunks?]
    have hfirst := head?_append_of_ne_nil hnil
      (List.replicate (d - b.length - 1) 0 ++ 0xFF :: rest) ▸ hbreak
    have hle : size + len ≤ b.length + (d - b.length - 1) := by
      rcases hrest with ⟨hin, -⟩ | ⟨hout, rfl⟩ <;> omega
    have hhere := head?_zeros hpad (k := d - b.length - 1) (by simp only; omega)
    have hhead := head?_append hhere (0xFF :: rest)
    have hpos := (head?_size hhere).1
    simp only at hpos
    rw [List.append_assoc] at hhead
    rw [chunks?_cons hfirst hhead (by simp; omega), Option.isSome_map]
    rcases hrest with ⟨hin, d', hd', rfl⟩ | ⟨hout, rfl⟩
    · rw [List.drop_append_of_le_length hin]
      have hlength : size + len + d' - b.length - 1 = d' - (b.drop (size + len)).length - 1 := by
        rw [List.length_drop]
        omega
      rw [hlength]
      refine ih hd' ?_ (by omega)
      rw [List.length_drop]
      omega
    · have hdrop : (b ++ (List.replicate (size + len + 1 - b.length - 1) 0 ++ 0xFF :: rest)).drop
          (size + len) = 0xFF :: rest := by
        rw [← List.append_assoc]
        refine List.drop_left' ?_
        simp
        omega
      obtain ⟨f, rfl⟩ : ∃ f', f = f' + 1 := ⟨f - 1, by omega⟩
      rw [hdrop]
      simp [chunks?]

/-- Two continuations give the same string if none of their bytes is needed, or more than there
are. -/
theorem string?_congr {h : Head} (hb : head? b = some h) (hlength : r.length = r'.length)
    (hneed : ∀ d, stringNeed b = some d → d ≤ b.length ∨ b.length + r.length < d) :
    string? (b ++ r) = string? (b ++ r') := by
  obtain ⟨m, arg, size⟩ := h
  obtain ⟨hpos, hsize⟩ := head?_size hb
  simp only at hpos hsize
  simp only [string?, head?_append hb, List.length_append, hlength]
  simp only [stringNeed, hb] at hneed
  cases arg with
  | none =>
    simp only at hneed ⊢
    rw [List.drop_append_of_le_length hsize, List.drop_append_of_le_length hsize]
    refine chunks?_congr (g := b.length) ?_ hlength fun d hd => ?_
    · rw [List.length_drop]
      omega
    · have hd' := hneed _ (Option.map_eq_some_iff.mpr ⟨d, hd, rfl⟩)
      rw [List.length_drop]
      omega
  | some len =>
    rcases hneed _ rfl with hin | hout
    · have htake : ∀ r, ((b ++ r).drop size).take len = (b.drop size).take len := by
        intro r
        rw [List.drop_append_of_le_length hsize, List.take_append_of_le_length]
        rw [List.length_drop]
        omega
      simp only [htake]
    · simp only
      rw [if_neg (by omega), if_neg (by omega)]

/-- Otherwise there are two continuations with different strings. -/
theorem string?_ne {h : Head} (hb : head? b = some h) (hmajor : h.major ≠ 0) {d k : Nat}
    (hneed : stringNeed b = some d) (hmissing : b.length < d) (hk : d ≤ b.length + k) :
    ∃ r r' : List UInt8, r.length = k ∧ r'.length = k ∧ string? (b ++ r) ≠ string? (b ++ r') := by
  obtain ⟨m, arg, size⟩ := h
  obtain ⟨hpos, hsize⟩ := head?_size hb
  simp only at hpos hsize hmajor
  have hdrop : ∀ r, (b ++ r).drop size = b.drop size ++ r :=
    fun r => List.drop_append_of_le_length hsize
  simp only [stringNeed, hb] at hneed
  cases arg with
  | none =>
    obtain ⟨d', hd', rfl⟩ := Option.map_eq_some_iff.mp hneed
    have hmissing' : (b.drop size).length < d' := by
      rw [List.length_drop]
      omega
    refine ⟨List.replicate (d' - (b.drop size).length - 1) 0 ++
      0xFF :: List.replicate (k + b.length - (size + d')) 0, List.replicate k 0, ?_, ?_, ?_⟩
    · simp
      omega
    · simp
    simp only [string?, head?_append hb, hdrop]
    have hnone := chunks?_zeros (k := k) hmajor hd' hmissing' (by rw [List.length_drop]; omega)
    intro heq
    rw [hnone] at heq
    have habs := chunks?_break hd' hmissing' (List.replicate (k + b.length - (size + d')) 0)
      (f := (b ++ (List.replicate (d' - (b.drop size).length - 1) 0 ++
        0xFF :: List.replicate (k + b.length - (size + d')) 0)).length) (by simp; omega)
    rw [heq] at habs
    simp at habs
  | some len =>
    obtain rfl := Option.some.inj hneed
    refine ⟨List.replicate k 0, List.replicate k 1, by simp, by simp, ?_⟩
    simp only [string?, head?_append hb, hdrop, List.length_append, List.length_replicate,
      if_pos hk]
    have hone : ∀ x : UInt8, (b.drop size ++ List.replicate k x).take len =
        b.drop size ++ List.replicate (len - (b.drop size).length) x := by
      intro x
      rw [List.take_append, List.take_of_length_le (by rw [List.length_drop]; omega),
        List.take_replicate]
      congr 2
      rw [List.length_drop]
      omega
    rw [hone, hone]
    intro heq
    have hreplicate := List.append_cancel_left (Option.some.inj heq)
    have hlen : len - (b.drop size).length ≠ 0 := by
      rw [List.length_drop]
      omega
    have hvalue := (List.replicate_inj.mp hreplicate).2.resolve_left hlen
    exact absurd hvalue (by decide)

/-- A string that was written is read back. -/
theorem string?_encode {major : Nat} (hmajor : major < 8) {s : List UInt8} (hs : s.length < 2 ^ 64)
    (r : List UInt8) : string? (encodeHead major s.length ++ s ++ r) = some s := by
  rw [string?, List.append_assoc, head?_encodeHead hmajor hs]
  simp only [List.length_append, List.drop_left', List.take_left']
  rw [if_pos (by omega)]

end Strings

end BmCore.Library.Cbor
