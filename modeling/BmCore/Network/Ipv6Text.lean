import BmCore.Library.HexText
import BmCore.Library.LongestRun
import BmCore.Network.Policy

/-!
# Addresses as texts

`format_ipv6` of `bm_linux.c` writes the eight words of an address as hexadecimal numbers with
colons between them. One loop looks for the first of the longest runs of zero words, another one
writes two colons for it, if it has two words at least, and no colon on either side. The text reads
back by the rules of RFC 4291.
-/
namespace BmCore.Network
open Library

/-! ## Writing -/

/-- `w[i]` -/
def ipv6Word (addr : BmIpAddr) (i : Fin 8) : UInt16 :=
  .ofNat ((addr ⟨2 * i, by omega⟩).toNat * 256 + (addr ⟨2 * i + 1, by omega⟩).toNat)

def ipv6Words (addr : BmIpAddr) : List UInt16 := List.ofFn (ipv6Word addr)

/-- The variables of the search for zeros; none is `-1`. -/
structure ZeroScan where
  zs : Option Nat := none
  zl : Nat := 0
  cs : Option Nat := none
  cl : Nat := 0

section Format
variable (w : List UInt16)

def zeroScanStep (s : ZeroScan) (i : Nat) : ZeroScan :=
  if w.getD i 0 = 0 then
    let (cs, cl) := match s.cs with
      | none => (i, 0)
      | some cs => (cs, s.cl)
    let cl := cl + 1
    if cl > s.zl then { zs := some cs, zl := cl, cs := some cs, cl }
    else { s with cs := some cs, cl }
  else { s with cs := none, cl := 0 }

/-- The first loop of `format_ipv6`. -/
def zeroScan : ZeroScan := (List.range 8).foldl (zeroScanStep w) {}

/-- The second loop, at word `i`. Every round moves on by a word at least. -/
def writeGroups (zs : Option Nat) (zl : Nat) : (fuel i : Nat) → (needColon : Bool) → List Char
  | 0, _, _ => []
  | fuel + 1, i, needColon =>
    if 8 ≤ i then []
    else if zs = some i then [':', ':'] ++ writeGroups zs zl fuel (i + zl) false
    else (if needColon then [':'] else []) ++ hexText (w.getD i 0).toNat ++
      writeGroups zs zl fuel (i + 1) true

def formatWords : List Char :=
  let scan := zeroScan w
  let zs := if scan.zl < 2 then none else scan.zs
  writeGroups w zs scan.zl 8 0 false

end Format

/-- `format_ipv6`: the characters in front of the terminator. -/
def formatIpv6 (addr : BmIpAddr) : List Char := formatWords (ipv6Words addr)

/-! ## Reading -/

/-- A group of one to four digits. -/
def parseGroup (cs : List Char) : Option UInt16 :=
  if 1 ≤ cs.length ∧ cs.length ≤ 4 then (parseHexFrom 0 cs).map UInt16.ofNat else none

/-- A decimal number of an IPv4 address. -/
def parseOctet (cs : List Char) : Option Nat :=
  if 1 ≤ cs.length ∧ cs.length ≤ 3 ∧ cs.all Char.isDigit then
    let n := Nat.ofDigitChars 10 cs 0
    if n < 256 then some n else none
  else none

/-- The last group, which may be an IPv4 address. -/
def parseLast (cs : List Char) : Option (List UInt16) :=
  match parseGroup cs with
  | some g => some [g]
  | none =>
    match (cs.splitOn '.').mapM parseOctet with
    | some [a, b, c, d] => some [.ofNat (a * 256 + b), .ofNat (c * 256 + d)]
    | _ => none

/-- Groups with colons between them. -/
def parsePieces : List (List Char) → Option (List UInt16)
  | [] => none
  | [last] => parseLast last
  | piece :: pieces => do
    let g ← parseGroup piece
    let gs ← parsePieces pieces
    return g :: gs

/-- Groups in front of a gap. -/
def parseFront (cs : List Char) : Option (List UInt16) :=
  if cs = [] then some [] else (cs.splitOn ':').mapM parseGroup

/-- Groups at the end of a text. -/
def parseBack (cs : List Char) : Option (List UInt16) :=
  if cs = [] then some [] else parsePieces (cs.splitOn ':')

/-- The text in front of the first `::` and the text behind it. -/
def splitGap : List Char → Option (List Char × List Char)
  | ':' :: ':' :: cs => some ([], cs)
  | c :: cs => (splitGap cs).map fun (left, right) => (c :: left, right)
  | [] => none

/-- The eight words of a text as RFC 4291 has it, section 2.2: groups, or groups with one gap that
stands for one or more zero words, and an IPv4 address at the end in either form. -/
def parseWords (cs : List Char) : Option (List UInt16) :=
  match splitGap cs with
  | none => do
    let words ← parseBack cs
    if words.length = 8 then return words else none
  | some (left, right) => do
    let left ← parseFront left
    let right ← parseBack right
    if left.length + right.length ≤ 7 then
      return left ++ List.replicate (8 - (left.length + right.length)) 0 ++ right
    else none

/-- The address with the words. -/
def addrOfWords (words : List UInt16) : BmIpAddr := fun i =>
  let word := (words.getD (i.val / 2) 0).toNat
  if i.val % 2 = 0 then .ofNat (word / 256) else .ofNat word

def parseIpv6 (cs : List Char) : Option BmIpAddr := (parseWords cs).map addrOfWords

/-! ## Groups with colons -/

def joined (ws : List UInt16) : List Char := [':'].intercalate (ws.map fun w => hexText w.toNat)

section Joined
variable {w w' : UInt16} {ws : List UInt16}

@[simp] theorem joined_nil : joined [] = [] := rfl

@[simp] theorem joined_singleton (w : UInt16) : joined [w] = hexText w.toNat := by
  simp [joined]

theorem joined_cons_cons (w w' : UInt16) (ws : List UInt16) :
    joined (w :: w' :: ws) = hexText w.toNat ++ ':' :: joined (w' :: ws) := by
  simp [joined, List.intercalate_cons_cons]

theorem colon_not_mem_hexText (n : Nat) : ':' ∉ hexText n := by
  intro h
  exact absurd (hexVal_of_mem_hexText h) (by decide)

theorem hexText_group_length (w : UInt16) : (hexText w.toNat).length ≤ 4 :=
  hexText_length_le (by decide) w.toNat_lt

theorem parseGroup_hexText (w : UInt16) : parseGroup (hexText w.toNat) = some w := by
  have hpos := List.length_pos_iff.mpr (hexText_ne_nil w.toNat)
  rw [parseGroup, if_pos ⟨hpos, hexText_group_length w⟩, parseHexFrom_hexText]
  simp

theorem joined_ne_nil (h : ws ≠ []) : joined ws ≠ [] := by
  match ws with
  | [w] =>
    rw [joined_singleton]
    exact hexText_ne_nil _
  | w :: w' :: ws =>
    rw [joined_cons_cons]
    simp

theorem splitOn_joined (h : ws ≠ []) :
    (joined ws).splitOn ':' = ws.map fun w => hexText w.toNat := by
  refine List.splitOn_intercalate ':' ?_ (by simpa using h)
  intro cs hcs
  obtain ⟨w, -, rfl⟩ := List.mem_map.mp hcs
  exact colon_not_mem_hexText _

theorem parsePieces_hexText (h : ws ≠ []) :
    parsePieces (ws.map fun w => hexText w.toNat) = some ws := by
  induction ws with
  | nil => exact absurd rfl h
  | cons w ws ih =>
    cases ws with
    | nil => simp [parsePieces, parseLast, parseGroup_hexText]
    | cons w' ws =>
      have hrest := ih (by simp)
      rw [List.map_cons] at hrest
      simp only [List.map_cons, parsePieces, parseGroup_hexText, hrest]
      rfl

/-- Groups read back at the end of a text. -/
theorem parseBack_joined (ws : List UInt16) : parseBack (joined ws) = some ws := by
  by_cases h : ws = []
  · subst h
    rfl
  · rw [parseBack, if_neg (joined_ne_nil h), splitOn_joined h, parsePieces_hexText h]

/-- Groups read back in front of a gap. -/
theorem parseFront_joined (ws : List UInt16) : parseFront (joined ws) = some ws := by
  by_cases h : ws = []
  · subst h
    rfl
  · rw [parseFront, if_neg (joined_ne_nil h), splitOn_joined h, List.mapM_map]
    have hgroup : (parseGroup ∘ fun w : UInt16 => hexText w.toNat) = some :=
      funext parseGroup_hexText
    rw [hgroup]
    induction ws with
    | nil => exact absurd rfl h
    | cons w ws ih =>
      by_cases hws : ws = []
      · subst hws
        rfl
      · rw [List.mapM_cons, ih hws]
        rfl

theorem joined_length (ws : List UInt16) :
    (joined ws).length ≤ 5 * ws.length ∧ (ws ≠ [] → (joined ws).length + 1 ≤ 5 * ws.length) := by
  induction ws with
  | nil => simp
  | cons w ws ih =>
    have hw := hexText_group_length w
    cases ws with
    | nil =>
      simp only [joined_singleton, List.length_singleton]
      omega
    | cons w' ws =>
      have hrest := ih.2 (by simp)
      simp only [joined_cons_cons, List.length_append, List.length_cons] at hrest ⊢
      omega

end Joined

/-! ## Gaps -/

theorem splitGap_none {cs : List Char} (h : splitGap cs = none) (left right : List Char) :
    cs ≠ left ++ ':' :: ':' :: right := by
  induction cs using splitGap.induct generalizing left with
  | case1 cs => simp [splitGap] at h
  | case2 c cs hne ih =>
    rw [splitGap.eq_2 c cs hne, Option.map_eq_none_iff] at h
    cases left with
    | nil =>
      intro heq
      rw [List.nil_append, List.cons.injEq] at heq
      exact hne right heq.1 heq.2
    | cons c' left =>
      intro heq
      rw [List.cons_append, List.cons.injEq] at heq
      exact ih h left heq.2
  | case3 => simp

theorem splitGap_cons {c : Char} {cs : List Char} (h : c ≠ ':' ∨ cs.head? ≠ some ':') :
    splitGap (c :: cs) = (splitGap cs).map fun (left, right) => (c :: left, right) := by
  refine splitGap.eq_2 c cs fun cs' hc hcs => ?_
  rcases h with hne | hne
  · exact hne hc
  · exact hne (by rw [hcs]; rfl)

/-- No gap begins in a group. -/
theorem splitGap_group {group : List Char} (h : ':' ∉ group) (cs : List Char) :
    splitGap (group ++ cs) =
      (splitGap cs).map fun (left, right) => (group ++ left, right) := by
  induction group with
  | nil => simp
  | cons c group ih =>
    rw [List.mem_cons, not_or] at h
    rw [List.cons_append, splitGap_cons (.inl fun hc => h.1 hc.symm), ih h.2, Option.map_map]
    rfl

theorem joined_head (w : UInt16) (ws : List UInt16) (cs : List Char) :
    (joined (w :: ws) ++ cs).head? ≠ some ':' := by
  have hhead : ∀ cs, (hexText w.toNat ++ cs).head? ≠ some ':' := by
    intro cs hcolon
    have hne := hexText_ne_nil w.toNat
    rw [List.head?_append_of_ne_nil _ hne] at hcolon
    exact colon_not_mem_hexText _ (List.mem_of_mem_head? hcolon)
  cases ws with
  | nil =>
    rw [joined_singleton]
    exact hhead cs
  | cons w' ws =>
    rw [joined_cons_cons, List.append_assoc]
    exact hhead _

/-- Groups have no gap between them. -/
theorem splitGap_joined (ws : List UInt16) (cs : List Char) : splitGap (joined ws ++ cs) =
    (splitGap cs).map fun (left, right) => (joined ws ++ left, right) := by
  induction ws with
  | nil => simp
  | cons w ws ih =>
    cases ws with
    | nil =>
      rw [joined_singleton]
      exact splitGap_group (colon_not_mem_hexText _) cs
    | cons w' ws =>
      rw [joined_cons_cons, List.append_assoc, List.cons_append,
        splitGap_group (colon_not_mem_hexText _), splitGap_cons (.inr (joined_head w' ws cs)), ih]
      simp only [Option.map_map]
      refine congrArg (fun f => Option.map f (splitGap cs)) (funext fun x => ?_)
      simp

/-! ## Round trip of the words -/

theorem parseWords_joined {ws : List UInt16} (h : ws.length = 8) :
    parseWords (joined ws) = some ws := by
  have hgap : splitGap (joined ws) = none := by
    have hnil := splitGap_joined ws []
    rwa [List.append_nil] at hnil
  simp only [parseWords, hgap, parseBack_joined]
  exact if_pos h

theorem parseWords_gap {left right : List UInt16} (h : left.length + right.length ≤ 7) :
    parseWords (joined left ++ ':' :: ':' :: joined right) =
      some (left ++ List.replicate (8 - (left.length + right.length)) 0 ++ right) := by
  have hgap : splitGap (joined left ++ ':' :: ':' :: joined right) =
      some (joined left, joined right) := by
    rw [splitGap_joined, splitGap]
    simp
  simp only [parseWords, hgap, parseFront_joined, parseBack_joined]
  exact if_pos h

/-! ## What the loops do -/

/-- Groups with a colon in front, if one is due. -/
def separated (needColon : Bool) (ws : List UInt16) : List Char :=
  if needColon ∧ ws ≠ [] then ':' :: joined ws else joined ws

theorem separated_cons (needColon : Bool) (w : UInt16) (ws : List UInt16) :
    separated needColon (w :: ws) =
      (if needColon then [':'] else []) ++ hexText w.toNat ++ separated true ws := by
  have hjoined : joined (w :: ws) = hexText w.toNat ++ separated true ws := by
    cases ws with
    | nil => simp [separated]
    | cons w' ws => simp [separated, joined_cons_cons]
  cases needColon <;> simp [separated, hjoined]

section Write
variable {w : List UInt16} (hw : w.length = 8) {zs : Option Nat} {zl : Nat}
include hw

/-- Behind the gap, or without one. -/
theorem writeGroups_rest {fuel i : Nat} (hfuel : 8 ≤ i + fuel) (hzs : ∀ j, i ≤ j → zs ≠ some j)
    (needColon : Bool) :
    writeGroups w zs zl fuel i needColon = separated needColon (w.drop i) := by
  induction fuel generalizing i needColon with
  | zero =>
    rw [List.drop_of_length_le (by omega)]
    simp [writeGroups, separated]
  | succ fuel ih =>
    unfold writeGroups
    by_cases hend : 8 ≤ i
    · rw [if_pos hend, List.drop_of_length_le (by omega)]
      simp [separated]
    · have hi : i < w.length := by omega
      have hword : w.getD i 0 = w[i] := by simp [hi]
      rw [if_neg hend, if_neg (hzs i le_rfl),
        ih (by omega) (fun j hj => hzs j (by omega)), List.drop_eq_getElem_cons hi, separated_cons,
        hword]

/-- In front of the gap. -/
theorem writeGroups_gap {z fuel i : Nat} (hpos : 0 < zl) (hi : i ≤ z) (hz : z < 8)
    (hfuel : 8 ≤ i + fuel) (needColon : Bool) :
    writeGroups w (some z) zl fuel i needColon =
      separated needColon ((w.take z).drop i) ++ ':' :: ':' :: joined (w.drop (z + zl)) := by
  induction fuel generalizing i needColon with
  | zero => omega
  | succ fuel ih =>
    unfold writeGroups
    rw [if_neg (by omega)]
    by_cases hgap : z = i
    · subst hgap
      have hrest : writeGroups w (some z) zl fuel (z + zl) false =
          separated false (w.drop (z + zl)) :=
        writeGroups_rest hw (by omega)
          (fun j hj heq => by have := Option.some.inj heq; omega) false
      have hnil : (w.take z).drop z = [] := List.drop_of_length_le (by simp)
      rw [if_pos rfl, hrest, hnil]
      simp [separated]
    · have hlt : i < (w.take z).length := by
        rw [List.length_take]
        omega
      have hword : w.getD i 0 = (w.take z)[i] := by
        have hlong : i < w.length := by omega
        simp [hlong]
      rw [if_neg (fun heq => hgap (Option.some.inj heq)), ih (by omega) (by omega),
        List.drop_eq_getElem_cons hlt, separated_cons, hword]
      simp only [List.append_assoc]

end Write

/-- A word of an address is zero. -/
def ZeroAt (w : List UInt16) (i : Nat) : Prop := w.getD i 0 = 0

/-- The scan knows the first longest run of zeros. -/
structure Scanned (w : List UInt16) (n : Nat) (s : ZeroScan) : Prop where
  longest : Longest (ZeroAt w) n s.zs s.zl
  trailing : Trailing (ZeroAt w) n s.cl
  current : ∀ cs, s.cs = some cs → cs + s.cl = n
  idle : s.cs = none → s.cl = 0

theorem Scanned.step {w : List UInt16} {n : Nat} {s : ZeroScan} (h : Scanned w n s) :
    Scanned w (n + 1) (zeroScanStep w s n) := by
  unfold zeroScanStep
  by_cases hzero : w.getD n 0 = 0
  · rw [if_pos hzero]
    obtain ⟨start, len, hmatch, hstart⟩ : ∃ start len, (match s.cs with
        | none => (n, 0)
        | some cs => (cs, s.cl)) = (start, len) ∧ start + len = n ∧ len = s.cl := by
      cases hcs : s.cs with
      | none => exact ⟨n, 0, rfl, rfl, (h.idle hcs).symm⟩
      | some cs => exact ⟨cs, s.cl, rfl, h.current cs hcs, rfl⟩
    obtain ⟨hsum, rfl⟩ := hstart
    rw [hmatch]
    dsimp only
    have htrailing := h.trailing.extend (p := ZeroAt w) hzero
    by_cases hlonger : s.cl + 1 > s.zl
    · rw [if_pos hlonger]
      have hfirst := h.longest.take_over h.trailing hzero hlonger
      have hbegin : n - s.cl = start := by omega
      rw [hbegin] at hfirst
      refine ⟨hfirst, htrailing, fun cs hcs => ?_, by simp⟩
      have := Option.some.inj hcs
      show cs + (s.cl + 1) = n + 1
      omega
    · rw [if_neg hlonger]
      refine ⟨h.longest.keep h.trailing (by omega), htrailing, fun cs hcs => ?_, by simp⟩
      have := Option.some.inj hcs
      show cs + (s.cl + 1) = n + 1
      omega
  · rw [if_neg hzero]
    exact ⟨h.longest.skip hzero, .skip hzero, by simp, fun _ => rfl⟩

theorem scanned_zeroScan (w : List UInt16) : Scanned w 8 (zeroScan w) := by
  have hrun : ∀ n, Scanned w n ((List.range n).foldl (zeroScanStep w) {}) := by
    intro n
    induction n with
    | zero => exact ⟨.zero, .zero, by simp, fun _ => rfl⟩
    | succ n ih =>
      rw [List.range_succ, List.foldl_append]
      exact ih.step
  exact hrun 8

/-! ## The text of an address -/

@[simp] theorem ipv6Words_length (addr : BmIpAddr) : (ipv6Words addr).length = 8 := by
  simp [ipv6Words]

/-- Without two zero words in a row there is no gap, and with them it is for the first longest run
of them. -/
theorem formatWords_eq {w : List UInt16} (hw : w.length = 8) :
    (formatWords w = joined w ∧ ∀ i k, IsRun (ZeroAt w) 8 i k → k < 2) ∨
    ∃ z k, FirstLongest (ZeroAt w) 8 z k ∧ 2 ≤ k ∧
      formatWords w = joined (w.take z) ++ ':' :: ':' :: joined (w.drop (z + k)) := by
  have hscan := (scanned_zeroScan w).longest
  unfold formatWords
  dsimp only
  by_cases hshort : (zeroScan w).zl < 2
  · rw [if_pos hshort]
    refine .inl ⟨?_, fun i k hrun => Nat.lt_of_le_of_lt (hscan.le hrun) hshort⟩
    rw [writeGroups_rest hw (by omega) (by simp)]
    simp [separated]
  · rw [if_neg hshort]
    cases hzs : (zeroScan w).zs with
    | none =>
      rw [hzs] at hscan
      have hzero := hscan.1
      omega
    | some z =>
      rw [hzs] at hscan
      have hbound := hscan.run.1
      refine .inr ⟨z, (zeroScan w).zl, hscan, by omega, ?_⟩
      rw [writeGroups_gap hw (by omega) (Nat.zero_le z) (by omega) (by omega)]
      simp [separated]

/-- A run of zeros is what a gap stands for. -/
theorem take_zeros_drop {w : List UInt16} (hw : w.length = 8) {z k : Nat}
    (h : IsRun (ZeroAt w) 8 z k) : w.take z ++ List.replicate k 0 ++ w.drop (z + k) = w := by
  have hbound := h.1
  have hzeros : (w.drop z).take k = List.replicate k 0 := by
    refine List.eq_replicate_iff.mpr ⟨by simp; omega, fun x hx => ?_⟩
    obtain ⟨i, hi, rfl⟩ := List.mem_iff_getElem.mp hx
    simp only [List.length_take, List.length_drop] at hi
    have hzero := h.2 (z + i) (by omega) (by omega)
    rw [ZeroAt, List.getD_eq_getElem?_getD, List.getElem?_eq_getElem (by omega)] at hzero
    simpa using hzero
  rw [← hzeros, ← List.drop_drop, List.append_assoc, List.take_append_drop,
    List.take_append_drop]

theorem parseWords_formatWords {w : List UInt16} (hw : w.length = 8) :
    parseWords (formatWords w) = some w := by
  rcases formatWords_eq hw with ⟨heq, -⟩ | ⟨z, k, hfirst, hk, heq⟩
  · rw [heq, parseWords_joined hw]
  · have hbound := hfirst.run.1
    have hlength : (w.take z).length + (w.drop (z + k)).length = 8 - k := by
      rw [List.length_take, List.length_drop]
      omega
    rw [heq, parseWords_gap (by omega), hlength, Nat.sub_sub_self (by omega),
      take_zeros_drop hw hfirst.run]

theorem ipv6Word_toNat (addr : BmIpAddr) (k : Fin 8) :
    (ipv6Word addr k).toNat =
      (addr ⟨2 * k.val, by omega⟩).toNat * 256 + (addr ⟨2 * k.val + 1, by omega⟩).toNat := by
  have hhigh := (addr ⟨2 * k.val, by omega⟩).toNat_lt
  have hlow := (addr ⟨2 * k.val + 1, by omega⟩).toNat_lt
  rw [ipv6Word, UInt16.toNat_ofNat']
  exact Nat.mod_eq_of_lt (by omega)

/-- The words of an address are its bytes. -/
theorem addrOfWords_ipv6Words (addr : BmIpAddr) : addrOfWords (ipv6Words addr) = addr := by
  funext i
  have hword : ((ipv6Words addr).getD (i.val / 2) 0).toNat =
      (addr ⟨2 * (i.val / 2), by omega⟩).toNat * 256 +
        (addr ⟨2 * (i.val / 2) + 1, by omega⟩).toNat := by
    have hget : (ipv6Words addr).getD (i.val / 2) 0 = ipv6Word addr ⟨i.val / 2, by omega⟩ := by
      rw [List.getD_eq_getElem?_getD, List.getElem?_eq_getElem (by simp; omega), Option.getD_some]
      exact List.getElem_ofFn ..
    rw [hget, ipv6Word_toNat]
  have hhigh := (addr ⟨2 * (i.val / 2), by omega⟩).toNat_lt
  have hlow := (addr ⟨2 * (i.val / 2) + 1, by omega⟩).toNat_lt
  unfold addrOfWords
  dsimp only
  rw [hword, ← UInt8.toNat_inj]
  by_cases heven : i.val % 2 = 0
  · have hi : (⟨2 * (i.val / 2), by omega⟩ : Fin 16) = i := Fin.ext (by simp; omega)
    rw [if_pos heven, UInt8.toNat_ofNat', ← congrArg addr hi]
    omega
  · have hi : (⟨2 * (i.val / 2) + 1, by omega⟩ : Fin 16) = i := Fin.ext (by simp; omega)
    rw [if_neg heven, UInt8.toNat_ofNat', ← congrArg addr hi]
    omega

theorem parseIpv6_formatIpv6 (addr : BmIpAddr) : parseIpv6 (formatIpv6 addr) = some addr := by
  rw [parseIpv6, formatIpv6, parseWords_formatWords (ipv6Words_length addr), Option.map_some,
    addrOfWords_ipv6Words]

/-- The two colons are in the text if a run of two zero words is in the address. -/
theorem gap_iff {w : List UInt16} (hw : w.length = 8) :
    (∃ left right, formatWords w = left ++ ':' :: ':' :: right) ↔
      ∃ i k, 2 ≤ k ∧ IsRun (ZeroAt w) 8 i k := by
  rcases formatWords_eq hw with ⟨heq, hshort⟩ | ⟨z, k, hfirst, hk, heq⟩
  · have hgap : splitGap (joined w) = none := by
      have hnil := splitGap_joined w []
      rwa [List.append_nil] at hnil
    constructor
    · rintro ⟨left, right, htext⟩
      exact absurd (heq.symm.trans htext) (splitGap_none hgap left right)
    · rintro ⟨i, k, hk, hrun⟩
      have hlt := hshort i k hrun
      omega
  · exact iff_of_true ⟨_, _, heq⟩ ⟨z, k, hk, hfirst.run⟩

theorem formatWords_length {w : List UInt16} (hw : w.length = 8) :
    (formatWords w).length ≤ 39 := by
  rcases formatWords_eq hw with ⟨heq, -⟩ | ⟨z, k, hfirst, hk, heq⟩
  · have hne : w ≠ [] := by
      rintro rfl
      cases hw
    have hlength := (joined_length w).2 hne
    rw [heq]
    omega
  · have hbound := hfirst.run.1
    have hleft := (joined_length (w.take z)).1
    have hright := (joined_length (w.drop (z + k))).1
    rw [List.length_take] at hleft
    rw [List.length_drop] at hright
    rw [heq]
    simp only [List.length_append, List.length_cons]
    omega

/-- The text of an address fits its buffer and tells the address, with a gap for the first of the
longest runs of two zero words or more, and only for that one. -/
theorem format_ipv6_faithful (addr : BmIpAddr) :
    (formatIpv6 addr).length ≤ 39 ∧
    parseIpv6 (formatIpv6 addr) = some addr ∧
    (∀ addr', formatIpv6 addr' = formatIpv6 addr → addr' = addr) ∧
    ((∃ left right, formatIpv6 addr = left ++ ':' :: ':' :: right) ↔
      ∃ i k, 2 ≤ k ∧ IsRun (ZeroAt (ipv6Words addr)) 8 i k) ∧
    ∀ z k, FirstLongest (ZeroAt (ipv6Words addr)) 8 z k → 2 ≤ k →
      formatIpv6 addr = joined ((ipv6Words addr).take z) ++
        ':' :: ':' :: joined ((ipv6Words addr).drop (z + k)) := by
  have hw := ipv6Words_length addr
  refine ⟨formatWords_length hw, parseIpv6_formatIpv6 addr, fun addr' heq => ?_, gap_iff hw,
    fun z k hfirst hk => ?_⟩
  · have hparse := parseIpv6_formatIpv6 addr'
    rw [heq, parseIpv6_formatIpv6] at hparse
    exact (Option.some.inj hparse).symm
  · rcases formatWords_eq hw with ⟨-, hshort⟩ | ⟨z', k', hfirst', -, heq⟩
    · have hlt := hshort z k hfirst.run
      omega
    · obtain ⟨rfl, rfl⟩ := hfirst.unique hfirst'
      exact heq

/-- Both runs of zeros of 2001:db8:0:0:1:0:0:1 have two words. -/
example : formatWords [0x2001, 0xdb8, 0, 0, 1, 0, 0, 1] = "2001:db8::1:0:0:1".toList := by
  decide

end BmCore.Network
