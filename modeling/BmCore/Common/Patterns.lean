import BmCore.Common.Util
import BmCore.Library.Glob
import Mathlib.Data.List.GetD
import Mathlib.Data.List.TakeWhile

/-!
# Patterns with stars

`bm_wildcard_match` (`common/util.c`) with its 16-bit indices. The loop goes back to the last star
only, and a star that comes first is behind the longest rest of the string.
-/
namespace BmCore
open Library

/-- `?` stands for one character, `*` for any string. -/
def wildcardToken (c : UInt8) : Token UInt8 :=
  if c = 0x3F then .one else if c = 0x2A then .many else .lit c

/-- The variables of the loop. -/
structure WildcardIndices where
  starIdx : Int32 := -1
  matchIdx : UInt16 := 0
  i : UInt16 := 0
  j : UInt16 := 0

section
variable (str pattern : List UInt8)

/-- One round of the loop, `none` if it is left. -/
def wildcardRound (s : WildcardIndices) : Option WildcardIndices :=
  if s.i.toNat < str.length then
    if s.j.toNat < pattern.length ∧
        (pattern.getD s.j.toNat 0 = 0x3F ∨ str.getD s.i.toNat 0 = pattern.getD s.j.toNat 0) then
      some { s with i := s.i + 1, j := s.j + 1 }
    else if s.j.toNat < pattern.length ∧ pattern.getD s.j.toNat 0 = 0x2A then
      some { s with starIdx := Int32.ofNat s.j.toNat, j := s.j + 1, matchIdx := s.i }
    else if s.starIdx ≠ -1 then
      some { s with
        j := (s.starIdx + 1).toUInt32.toUInt16, matchIdx := s.matchIdx + 1, i := s.matchIdx + 1 }
    else none
  else none

/-- The variables when the loop is left, if it is within this many rounds. -/
def wildcardRounds : Nat → WildcardIndices → Option WildcardIndices
  | 0, _ => none
  | n + 1, s => match wildcardRound str pattern s with
    | none => some s
    | some t => wildcardRounds n t

/-- What `bm_wildcard_match` returns after its loop. -/
def onlyStarsBehind (s : WildcardIndices) : Bool :=
  ((pattern.drop s.j.toNat).dropWhile (· == 0x2A)).isEmpty

/-- The star to go back to. -/
def WildcardIndices.star (s : WildcardIndices) : Option Nat :=
  if s.starIdx = -1 then none else some s.starIdx.toInt.toNat

/-- No index has passed its end. -/
structure WithinLengths (s : WildcardIndices) : Prop where
  i : s.i.toNat ≤ str.length
  j : s.j.toNat ≤ pattern.length
  matched : s.matchIdx.toNat ≤ s.i.toNat
  star : s.starIdx = -1 ∨ ∃ k, s.starIdx = Int32.ofNat k ∧ k < s.j.toNat

end

section
variable {str pattern : List UInt8} {s t : WildcardIndices} {k : Nat}

/-! ## One round -/

theorem toInt_starIdx (hk : k < 2 ^ 16) : (Int32.ofNat k).toInt = k :=
  Int32.toInt_ofNat_of_lt (by omega)

theorem starIdx_ne (hk : k < 2 ^ 16) : Int32.ofNat k ≠ -1 := by
  intro h
  have hint := congrArg Int32.toInt h
  rw [toInt_starIdx hk] at hint
  have hneg : (-1 : Int32).toInt = -1 := by decide
  omega

/-- The conversions in `j = star_idx + 1` lose nothing. -/
theorem toNat_starIdx_succ (hk : k + 1 < 2 ^ 16) :
    ((Int32.ofNat k + 1).toUInt32.toUInt16).toNat = k + 1 := by
  have hadd : (Int32.ofNat k + 1).toUInt32 = UInt32.ofNat (k + 1) := by
    rw [Int32.toUInt32_add, Int32.toUInt32_ofNat', UInt32.ofNat_add]
    rfl
  rw [hadd, UInt32.toNat_toUInt16, UInt32.toNat_ofNat', Nat.mod_mod_of_dvd _ (by decide),
    Nat.mod_eq_of_lt hk]

theorem toNat_index_succ {x : UInt16} {n : Nat} (hx : x.toNat < n) (hn : n < 2 ^ 16) :
    (x + 1).toNat = x.toNat + 1 := by
  rw [UInt16.toNat_add]
  exact Nat.mod_eq_of_lt (by change x.toNat + 1 < _; omega)

theorem WithinLengths.initial : WithinLengths str pattern {} :=
  ⟨Nat.zero_le _, Nat.zero_le _, le_rfl, .inl rfl⟩

variable (str pattern) in
/-- The character of the pattern fits the one of the string. -/
abbrev CharFits (s : WildcardIndices) : Prop :=
  s.j.toNat < pattern.length ∧
    (pattern.getD s.j.toNat 0 = 0x3F ∨ str.getD s.i.toNat 0 = pattern.getD s.j.toNat 0)

variable (pattern) in
/-- The character of the pattern is a star. -/
abbrev AtStar (s : WildcardIndices) : Prop :=
  s.j.toNat < pattern.length ∧ pattern.getD s.j.toNat 0 = 0x2A

/-- The three ways to go on. -/
inductive Round (str pattern : List UInt8) (s t : WildcardIndices) : Prop where
  | char (hfits : CharFits str pattern s) (i : t.i.toNat = s.i.toNat + 1)
      (j : t.j.toNat = s.j.toNat + 1) (matched : t.matchIdx = s.matchIdx) (star : t.star = s.star)
  | star (hnot : ¬ CharFits str pattern s) (hstar : AtStar pattern s) (i : t.i = s.i)
      (j : t.j.toNat = s.j.toNat + 1) (matched : t.matchIdx = s.i)
      (star : t.star = some s.j.toNat)
  | back (k : Nat) (hnot : ¬ CharFits str pattern s) (hstar : ¬ AtStar pattern s)
      (hk : s.star = some k) (i : t.i.toNat = s.matchIdx.toNat + 1) (j : t.j.toNat = k + 1)
      (matched : t.matchIdx = t.i) (star : t.star = some k)

theorem star_of_starIdx (hk : k < 2 ^ 16) (h : s.starIdx = Int32.ofNat k) : s.star = some k := by
  rw [WildcardIndices.star, h, if_neg (starIdx_ne hk), toInt_starIdx hk]
  rfl

/-- A round goes on in one of the ways and leaves every index within its bounds. -/
theorem wildcardRound_some (hstr : str.length < 2 ^ 16) (hpattern : pattern.length < 2 ^ 16)
    (h : WithinLengths str pattern s) (hround : wildcardRound str pattern s = some t) :
    s.i.toNat < str.length ∧ Round str pattern s t ∧ WithinLengths str pattern t := by
  obtain ⟨hi, hj, hm, hs⟩ := h
  unfold wildcardRound at hround
  split_ifs at hround with hlt hchar hstar hback
  · have hi' := toNat_index_succ hlt hstr
    have hj' := toNat_index_succ hchar.1 hpattern
    obtain rfl := Option.some.inj hround
    refine ⟨hlt, .char hchar hi' hj' rfl rfl, ?_⟩
    constructor <;> dsimp only <;> grind
  · have hj' := toNat_index_succ hstar.1 hpattern
    obtain rfl := Option.some.inj hround
    refine ⟨hlt, .star hchar hstar rfl hj' rfl (star_of_starIdx (by omega) rfl), ?_⟩
    refine ⟨hi, by dsimp only; omega, le_rfl, .inr ⟨s.j.toNat, rfl, ?_⟩⟩
    dsimp only
    omega
  · obtain ⟨k, hk, hkj⟩ := hs.resolve_left hback
    have hi' := toNat_index_succ (show s.matchIdx.toNat < str.length by omega) hstr
    have hj' : ((s.starIdx + 1).toUInt32.toUInt16).toNat = k + 1 := by
      rw [hk]
      exact toNat_starIdx_succ (by omega)
    obtain rfl := Option.some.inj hround
    refine ⟨hlt, .back k hchar hstar (star_of_starIdx (by omega) hk) hi' hj' rfl
      (star_of_starIdx (by omega) hk), ?_⟩
    refine ⟨?_, ?_, le_rfl, .inr ⟨k, hk, ?_⟩⟩ <;> dsimp only <;> omega

/-- The loop is left at the end of the string, or where nothing fits and no star came before. -/
theorem wildcardRound_none (hround : wildcardRound str pattern s = none) :
    str.length ≤ s.i.toNat ∨ (s.i.toNat < str.length ∧ ¬ CharFits str pattern s ∧
      ¬ AtStar pattern s ∧ s.star = none) := by
  unfold wildcardRound at hround
  split_ifs at hround with hlt hchar hstar hback
  · exact .inr ⟨hlt, hchar, hstar, by rw [WildcardIndices.star, if_pos (not_not.mp hback)]⟩
  · exact .inl (Nat.not_lt.mp hlt)

/-- A round of the loop without the 16 bits does the same. -/
theorem wildcardLoop_round (hstr : str.length < 2 ^ 16) (hpattern : pattern.length < 2 ^ 16)
    (h : WithinLengths str pattern s) (n : Nat) :
    wildcardLoop str pattern (n + 1) s.i.toNat s.j.toNat s.matchIdx.toNat s.star =
      match wildcardRound str pattern s with
      | none => s.j.toNat
      | some t => wildcardLoop str pattern n t.i.toNat t.j.toNat t.matchIdx.toNat t.star := by
  rw [wildcardLoop.eq_def]
  cases hround : wildcardRound str pattern s with
  | none =>
    rcases wildcardRound_none hround with hend | ⟨hlt, hchar, hstar, hnone⟩
    · exact if_neg (by omega)
    · dsimp only
      rw [if_pos hlt, if_neg hchar, if_neg hstar, hnone]
  | some t =>
    obtain ⟨hlt, hcase, -⟩ := wildcardRound_some hstr hpattern h hround
    dsimp only
    rw [if_pos hlt]
    cases hcase with
    | char hfits hi hj hm hs => rw [if_pos hfits, hi, hj, hm, hs]
    | star hnot hstar hi hj hm hs => rw [if_neg hnot, if_pos hstar, hi, hj, hm, hs]
    | back k hnot hstar hk hi hj hm hs => rw [if_neg hnot, if_neg hstar, hk, hm, hi, hj, hs]

/-! ## The end of the loop -/

/-- How many rounds may follow. -/
def roundsLeft (str pattern : List UInt8) (s : WildcardIndices) : Nat :=
  (str.length - s.matchIdx.toNat) * (pattern.length + 1) + (pattern.length - s.j.toNat)

theorem roundsLeft_lt (h : WithinLengths str pattern s) (hlt : s.i.toNat < str.length)
    (hround : Round str pattern s t) : roundsLeft str pattern t < roundsLeft str pattern s := by
  have hm := h.matched
  unfold roundsLeft
  cases hround with
  | char hfits hi hj hmatched hs =>
    have hend := hfits.1
    rw [hmatched, hj]
    omega
  | star hnot hstar hi hj hmatched hs =>
    have hend := hstar.1
    have hle : (str.length - s.i.toNat) * (pattern.length + 1) ≤
        (str.length - s.matchIdx.toNat) * (pattern.length + 1) :=
      Nat.mul_le_mul_right _ (by omega)
    rw [hmatched, hj]
    omega
  | back k hnot hstar hk hi hj hmatched hs =>
    obtain ⟨n, hn⟩ := Nat.exists_eq_add_of_lt (show s.matchIdx.toNat < str.length by omega)
    have hleft : str.length - s.matchIdx.toNat = (str.length - (s.matchIdx.toNat + 1)) + 1 := by
      omega
    rw [hmatched, hi, hj, hleft, Nat.succ_mul]
    omega

theorem wildcardRounds_ends (hstr : str.length < 2 ^ 16) (hpattern : pattern.length < 2 ^ 16)
    (h : WithinLengths str pattern s) {n : Nat} (hn : roundsLeft str pattern s < n) :
    ∃ t, wildcardRounds str pattern n s = some t ∧
      t.j.toNat = wildcardLoop str pattern n s.i.toNat s.j.toNat s.matchIdx.toNat s.star := by
  induction n generalizing s with
  | zero => omega
  | succ n ih =>
    rw [wildcardLoop_round hstr hpattern h, wildcardRounds]
    cases hround : wildcardRound str pattern s with
    | none => exact ⟨s, rfl, rfl⟩
    | some t =>
      obtain ⟨hlt, hcase, h'⟩ := wildcardRound_some hstr hpattern h hround
      have hless := roundsLeft_lt h hlt hcase
      exact ih h' (by omega)

/-! ## What has been read -/

theorem wildcardToken_eq_many {c : UInt8} : wildcardToken c = .many ↔ c = 0x2A := by
  unfold wildcardToken
  split_ifs with hone hmany
  · simp [hone]
  · simp [hmany]
  · simp [hmany]

theorem wildcardToken_fits {c a : UInt8} :
    (wildcardToken c).Fits a ↔ c = 0x3F ∨ (c ≠ 0x2A ∧ a = c) := by
  unfold wildcardToken
  split_ifs with hone hmany
  · simp [Token.Fits, hone]
  · simp [Token.Fits, hmany]
  · simp [Token.Fits, hone, hmany, eq_comm]

theorem drop_token {j : Nat} (hj : j < pattern.length) :
    (pattern.map wildcardToken).drop j =
      wildcardToken (pattern.getD j 0) :: (pattern.map wildcardToken).drop (j + 1) := by
  rw [List.drop_eq_getElem_cons (by simpa using hj), List.getElem_map,
    List.getD_eq_getElem _ _ hj]

theorem drop_char {i : Nat} (hi : i < str.length) :
    str.drop i = str.getD i 0 :: str.drop (i + 1) := by
  rw [List.drop_eq_getElem_cons hi, List.getD_eq_getElem _ _ hi]

theorem onlyStarsBehind_iff : onlyStarsBehind pattern s = true ↔
    ∀ t ∈ (pattern.map wildcardToken).drop s.j.toNat, t = .many := by
  simp only [onlyStarsBehind, List.isEmpty_iff, List.dropWhile_eq_nil_iff, beq_iff_eq,
    ← List.map_drop, List.forall_mem_map, wildcardToken_eq_many]

/-- What the loop knows: behind the start, or behind the last star, the pattern has been read along
the string; with a star, the rests behind it decide. -/
inductive ReadsAlong (str pattern : List UInt8) (s : WildcardIndices) : Prop where
  | start (q : List (Token UInt8)) (u : List UInt8) (hstar : s.star = none)
      (hp : pattern.map wildcardToken = q ++ (pattern.map wildcardToken).drop s.j.toNat)
      (hu : str = u ++ str.drop s.i.toNat) (hfit : Fit q u)
  | star (k : Nat) (q : List (Token UInt8)) (u : List UInt8) (hstar : s.star = some k)
      (hmany : .many ∈ pattern.map wildcardToken)
      (hglobs : Globs (pattern.map wildcardToken) str ↔
        Globs (.many :: (pattern.map wildcardToken).drop (k + 1)) (str.drop s.matchIdx.toNat))
      (hp : (pattern.map wildcardToken).drop (k + 1) =
        q ++ (pattern.map wildcardToken).drop s.j.toNat)
      (hu : str.drop s.matchIdx.toNat = u ++ str.drop s.i.toNat) (hfit : Fit q u)

theorem ReadsAlong.initial : ReadsAlong str pattern {} :=
  .start [] [] rfl rfl rfl .nil

/-- The next character belongs to what has been read. -/
theorem ReadsAlong.char (h : ReadsAlong str pattern s) (hstr : 0x2A ∉ str)
    (hlt : s.i.toNat < str.length) (hchar : CharFits str pattern s) (hi : t.i.toNat = s.i.toNat + 1)
    (hj : t.j.toNat = s.j.toNat + 1) (hm : t.matchIdx = s.matchIdx) (hs : t.star = s.star) :
    ReadsAlong str pattern t := by
  have hp' := drop_token hchar.1
  have hu' := drop_char hlt
  have hne : str.getD s.i.toNat 0 ≠ 0x2A := by
    rw [List.getD_eq_getElem _ _ hlt]
    exact fun heq => hstr (heq ▸ List.getElem_mem hlt)
  have hfits : (wildcardToken (pattern.getD s.j.toNat 0)).Fits (str.getD s.i.toNat 0) := by
    rw [wildcardToken_fits]
    rcases hchar.2 with hone | hsame
    · exact .inl hone
    · exact .inr ⟨hsame ▸ hne, hsame⟩
  cases h with
  | start q u hstar hp hu hfit =>
    refine .start (q ++ [_]) (u ++ [_]) (hs.trans hstar) ?_ ?_
      (List.rel_append hfit (.cons hfits .nil))
    · rw [hj, List.append_assoc, List.singleton_append, ← hp']
      exact hp
    · rw [hi, List.append_assoc, List.singleton_append, ← hu']
      exact hu
  | star k q u hstar hmany hglobs hp hu hfit =>
    refine .star k (q ++ [_]) (u ++ [_]) (hs.trans hstar) hmany (hm ▸ hglobs) ?_ ?_
      (List.rel_append hfit (.cons hfits .nil))
    · rw [hj, List.append_assoc, List.singleton_append, ← hp']
      exact hp
    · rw [hm, hi, List.append_assoc, List.singleton_append, ← hu']
      exact hu

/-- A new star takes over from the last one. -/
theorem ReadsAlong.newStar (h : ReadsAlong str pattern s) (hstar : AtStar pattern s)
    (hi : t.i = s.i) (hj : t.j.toNat = s.j.toNat + 1) (hm : t.matchIdx = s.i)
    (hs : t.star = some s.j.toNat) : ReadsAlong str pattern t := by
  have hp' := drop_token hstar.1
  rw [wildcardToken_eq_many.mpr hstar.2] at hp'
  have hmem : .many ∈ pattern.map wildcardToken :=
    List.mem_of_mem_drop (hp' ▸ List.mem_cons_self)
  refine .star _ [] [] hs hmem ?_ (by rw [hj, List.nil_append]) (by rw [hm, hi, List.nil_append])
    .nil
  rw [hm, ← hp']
  cases h with
  | start q u _ hp hu hfit =>
    calc Globs (pattern.map wildcardToken) str
        ↔ Globs (q ++ (pattern.map wildcardToken).drop s.j.toNat) (u ++ str.drop s.i.toNat) := by
          rw [← hp, ← hu]
      _ ↔ _ := hfit.globs_append
  | star k q u _ hmany hglobs hp hu hfit =>
    rw [hglobs, hp, hu, hp', hfit.globs_later_many]

/-- Where the loop does not read on, the pattern is at its end or its token does not fit. -/
theorem token_stuck (hchar : ¬ CharFits str pattern s) (hstar : ¬ AtStar pattern s) :
    (pattern.map wildcardToken).drop s.j.toNat = [] ∨
      ∃ t p, (pattern.map wildcardToken).drop s.j.toNat = t :: p ∧ t ≠ .many ∧
        ¬ t.Fits (str.getD s.i.toNat 0) := by
  by_cases hj : s.j.toNat < pattern.length
  · refine .inr ⟨_, _, drop_token hj, ?_, ?_⟩
    · rw [Ne, wildcardToken_eq_many]
      exact fun heq => hstar ⟨hj, heq⟩
    · rw [wildcardToken_fits]
      rintro (hone | ⟨-, hsame⟩)
      · exact hchar ⟨hj, .inl hone⟩
      · exact hchar ⟨hj, .inr hsame⟩
  · exact .inl (List.drop_eq_nil_of_le (by simpa using hj))

/-- Where nothing fits, the star takes one more character. -/
theorem ReadsAlong.back (h : ReadsAlong str pattern s) (hlt : s.i.toNat < str.length)
    (hchar : ¬ CharFits str pattern s) (hstar : ¬ AtStar pattern s) {k : Nat}
    (hk : s.star = some k) (hi : t.i.toNat = s.matchIdx.toNat + 1) (hj : t.j.toNat = k + 1)
    (hm : t.matchIdx = t.i) (hs : t.star = some k) : ReadsAlong str pattern t := by
  cases h with
  | start q u hnone => simp [hnone] at hk
  | star k' q u hsome hmany hglobs hp hu hfit =>
    obtain rfl := Option.some.inj (hsome.symm.trans hk)
    refine .star _ [] [] hs hmany ?_ (by rw [hj, List.nil_append]) (by rw [hm, List.nil_append])
      .nil
    have hrest : ¬ Globs ((pattern.map wildcardToken).drop s.j.toNat) (str.drop s.i.toNat) := by
      rw [drop_char hlt]
      rcases token_stuck hchar hstar with hend | ⟨t, p, hcons, hne, hfits⟩
      · simp [hend]
      · rw [hcons, globs_cons hne]
        rintro ⟨a, v, heq, ha, -⟩
        exact hfits ((List.cons.inj heq).1 ▸ ha)
    have hnot : ¬ Globs ((pattern.map wildcardToken).drop (k' + 1))
        (str.drop s.matchIdx.toNat) := by
      rwa [hp, hu, hfit.globs_append]
    rw [hglobs, globs_many_tail hnot, List.tail_drop, hm, hi]

/-- At the end of the loop, the rest of the pattern decides. -/
theorem ReadsAlong.ends (h : ReadsAlong str pattern s) (hwithin : WithinLengths str pattern s)
    (hround : wildcardRound str pattern s = none) :
    onlyStarsBehind pattern s = true ↔ Accepts (pattern.map wildcardToken) str := by
  rw [onlyStarsBehind_iff]
  have hi := hwithin.i
  rcases wildcardRound_none hround with hend | ⟨hlt, hchar, hnostar, hnone⟩
  · have hdrop : str.drop s.i.toNat = [] := List.drop_eq_nil_of_le hend
    cases h with
    | start q u hstar hp hu hfit =>
      have hall := hfit.accepts_end (p := (pattern.map wildcardToken).drop s.j.toNat)
      rw [hdrop, List.append_nil] at hu
      rw [← hp, ← hu] at hall
      exact hall.symm
    | star k q u hstar hmany hglobs hp hu hfit =>
      have hall := hfit.globs_end (p := (pattern.map wildcardToken).drop s.j.toNat)
      rw [hdrop, List.append_nil] at hu
      rw [← hp, ← hu, ← hglobs] at hall
      simp only [Accepts, hmany, true_and, not_true_eq_false, false_and, or_false, hall]
  · cases h with
    | star k q u hstar => simp [hnone] at hstar
    | start q u hstar hp hu hfit =>
      rcases token_stuck hchar hnostar with hend | ⟨t, p, hcons, hne, hfits⟩
      · have haccepts := hfit.accepts (str.drop s.i.toNat)
        rw [hend, List.append_nil] at hp
        rw [← hp, ← hu] at haccepts
        simp [hend, haccepts]
      · have hnot := hfit.not_accepts (v := str.drop (s.i.toNat + 1)) (p := p) hne hfits
        rw [← drop_char hlt, ← hu, ← hcons, ← hp] at hnot
        refine iff_of_false (fun hall => ?_) hnot
        exact hne (hall t (hcons ▸ List.mem_cons_self))

theorem ReadsAlong.round (h : ReadsAlong str pattern s) (hstr : 0x2A ∉ str)
    (hlt : s.i.toNat < str.length) (hround : Round str pattern s t) : ReadsAlong str pattern t := by
  cases hround with
  | char hfits hi hj hm hs => exact h.char hstr hlt hfits hi hj hm hs
  | star _ hstar hi hj hm hs => exact h.newStar hstar hi hj hm hs
  | back k hnot hstar hk hi hj hm hs => exact h.back hlt hnot hstar hk hi hj hm hs

theorem ReadsAlong.run (h : ReadsAlong str pattern s) (hwithin : WithinLengths str pattern s)
    (hstar : 0x2A ∉ str) (hstr : str.length < 2 ^ 16) (hpattern : pattern.length < 2 ^ 16)
    {n : Nat} (hrun : wildcardRounds str pattern n s = some t) :
    onlyStarsBehind pattern t = true ↔ Accepts (pattern.map wildcardToken) str := by
  induction n generalizing s with
  | zero => cases hrun
  | succ n ih =>
    rw [wildcardRounds] at hrun
    cases hround : wildcardRound str pattern s with
    | none =>
      rw [hround] at hrun
      obtain rfl := Option.some.inj hrun
      exact h.ends hwithin hround
    | some s' =>
      rw [hround] at hrun
      obtain ⟨hlt, hcase, hwithin'⟩ := wildcardRound_some hstr hpattern hwithin hround
      exact ih (h.round hstar hlt hcase) hwithin' hrun

/-- `bm_wildcard_match` with its 16-bit indices, `none` if the loop went on for longer than the two
lengths allow. -/
def wildcardMatch (str pattern : List UInt8) : Option Bool :=
  (wildcardRounds str pattern ((str.length + 1) * (pattern.length + 1)) {}).map
    (onlyStarsBehind pattern)

/-- The loop ends for strings of all lengths, and for a topic without stars it accepts what the
pattern stands for: the whole topic if there is a star in it, else a prefix. -/
theorem bmWildcardMatch_iff (str pattern : List UInt8) (hstr : str.length < 2 ^ 16)
    (hpattern : pattern.length < 2 ^ 16) :
    wildcardMatch str pattern = some (bmWildcardMatch str pattern) ∧
    (0x2A ∉ str → (bmWildcardMatch str pattern = true ↔
      Accepts (pattern.map wildcardToken) str)) := by
  have hwithin : WithinLengths str pattern {} := .initial
  have hrounds : roundsLeft str pattern {} < (str.length + 1) * (pattern.length + 1) := by
    have hm : ({} : WildcardIndices).matchIdx.toNat = 0 := rfl
    rw [roundsLeft, hm, Nat.sub_zero, Nat.succ_mul]
    omega
  obtain ⟨t, hrun, hj⟩ := wildcardRounds_ends hstr hpattern hwithin hrounds
  have hresult : onlyStarsBehind pattern t = bmWildcardMatch str pattern := by
    rw [onlyStarsBehind, hj]
    rfl
  refine ⟨?_, fun hstar => ?_⟩
  · rw [wildcardMatch, hrun, Option.map_some, hresult]
  · rw [← hresult]
    exact ReadsAlong.initial.run hwithin hstar hstr hpattern hrun

/-- A topic and its first character. -/
theorem bmWildcardMatch_iff_ab :
    wildcardMatch [0x61, 0x62] [0x61] = some (bmWildcardMatch [0x61, 0x62] [0x61]) ∧
    ((0x2A : UInt8) ∉ [0x61, 0x62] → (bmWildcardMatch [0x61, 0x62] [0x61] = true ↔
      Accepts ([0x61].map wildcardToken) [0x61, 0x62])) :=
  bmWildcardMatch_iff _ _ (by decide) (by decide)

end
end BmCore
