import Mathlib.Data.List.Basic
import Mathlib.Data.List.Lex
import Mathlib.Data.Nat.Basic
import Mathlib.Tactic.IntervalCases
import Mathlib.Tactic.SplitIfs

/-!
# The Gregorian calendar

Dates of the proleptic Gregorian calendar and the days and seconds that have passed since the first
day of a year. The months of a year and the years since another one are spans that follow each
other; a point of time is later than another just when its fields come later in lexicographic order.
-/
namespace BmCore.Library

/-! ## Consecutive spans -/

/-- Where span `k` starts when the spans `0`, `1`, … have the lengths `len`. -/
def spanStart (len : Nat → Nat) (k : Nat) : Nat := ((List.range k).map len).sum

section Spans
variable {len : Nat → Nat} {k k' r r' : Nat}

@[simp] theorem spanStart_zero : spanStart len 0 = 0 := rfl

theorem spanStart_succ : spanStart len (k + 1) = spanStart len k + len k := by
  simp [spanStart, List.range_succ]

/-- The spans behind the first one. -/
theorem spanStart_succ' :
    spanStart len (k + 1) = len 0 + spanStart (fun i => len (i + 1)) k := by
  simp [spanStart, List.range_succ_eq_map, Function.comp_def]

theorem spanStart_congr {len' : Nat → Nat} (h : ∀ i < k, len i = len' i) :
    spanStart len k = spanStart len' k := by
  have hmap : (List.range k).map len = (List.range k).map len' :=
    List.map_congr_left fun i hi => h i (List.mem_range.mp hi)
  rw [spanStart, spanStart, hmap]

theorem spanStart_mul (c : Nat) : spanStart (fun i => c * len i) k = c * spanStart len k := by
  induction k with
  | zero => rfl
  | succ k ih => rw [spanStart_succ, spanStart_succ, ih, Nat.mul_add]

theorem spanStart_mono (h : k ≤ k') : spanStart len k ≤ spanStart len k' := by
  induction k', h using Nat.le_induction with
  | base => exact Nat.le_refl _
  | succ k' _ ih =>
    rw [spanStart_succ]
    omega

/-- What lies in a span comes before what lies in a later one. -/
theorem spanStart_lt (h : k < k') (hr : r < len k) :
    spanStart len k + r < spanStart len k' + r' := by
  have hnext : spanStart len k + len k ≤ spanStart len k' := by
    rw [← spanStart_succ]
    exact spanStart_mono h
  omega

theorem sum_map_range' (f : Nat → Nat) (a n : Nat) :
    ((List.range' a n).map f).sum = spanStart (fun i => f (a + i)) n := by
  rw [List.range'_eq_map_range, List.map_map]
  rfl

end Spans

/-! ## Dates -/

/-- Every fourth year but three out of four centuries. -/
def IsLeapYear (year : Nat) : Prop := 4 ∣ year ∧ (100 ∣ year → 400 ∣ year)

instance (year : Nat) : Decidable (IsLeapYear year) := inferInstanceAs (Decidable (_ ∧ _))

def yearLength (year : Nat) : Nat := if IsLeapYear year then 366 else 365

/-- The days of a month; January is 1. -/
def monthLength (year month : Nat) : Nat :=
  if month = 2 then if IsLeapYear year then 29 else 28
  else if month = 4 ∨ month = 6 ∨ month = 9 ∨ month = 11 then 30
  else 31

/-- The days of a year before a month. -/
def daysBeforeMonth (year month : Nat) : Nat :=
  spanStart (fun i => monthLength year (1 + i)) (month - 1)

/-- The days between the beginnings of two years. -/
def daysBeforeYear (epoch year : Nat) : Nat :=
  spanStart (fun i => yearLength (epoch + i)) (year - epoch)

/-- The months make up the year. -/
theorem daysBeforeMonth_all (year : Nat) : daysBeforeMonth year 13 = yearLength year := by
  simp only [daysBeforeMonth, yearLength, spanStart, monthLength]
  split_ifs <;> rfl

/-- A point of time, to the second. -/
structure CivilTime where
  year : Nat
  month : Nat
  day : Nat
  hour : Nat
  minute : Nat
  second : Nat
  month_pos : 1 ≤ month
  month_le : month ≤ 12
  day_pos : 1 ≤ day
  day_le : day ≤ monthLength year month
  hour_lt : hour < 24
  minute_lt : minute < 60
  second_lt : second < 60

namespace CivilTime
variable {epoch : Nat} {t t' : CivilTime}

/-- The fields, from the year down. -/
def fields (t : CivilTime) : List Nat := [t.year, t.month, t.day, t.hour, t.minute, t.second]

/-- Earlier: the fields come first in lexicographic order. -/
instance : LT CivilTime := ⟨fun t t' => t.fields < t'.fields⟩

def dayOfYear (t : CivilTime) : Nat := daysBeforeMonth t.year t.month + (t.day - 1)

/-- The days since the beginning of the year `epoch`. -/
def daysSince (epoch : Nat) (t : CivilTime) : Nat := daysBeforeYear epoch t.year + t.dayOfYear

/-- The seconds since the beginning of the year `epoch`. -/
def secondsSince (epoch : Nat) (t : CivilTime) : Nat :=
  t.daysSince epoch * 86400 + t.hour * 3600 + t.minute * 60 + t.second

/-- The day is one of its month. -/
theorem day_sub_one_lt (t : CivilTime) : t.day - 1 < monthLength t.year (1 + (t.month - 1)) := by
  have hmonth : 1 + (t.month - 1) = t.month := Nat.add_sub_cancel' t.month_pos
  have hpos := t.day_pos
  have hle := t.day_le
  rw [hmonth]
  omega

theorem dayOfYear_lt (t : CivilTime) : t.dayOfYear < yearLength t.year := by
  have hmonth : t.month - 1 < 12 := by
    have hle := t.month_le
    omega
  have hlt : daysBeforeMonth t.year t.month + (t.day - 1) < daysBeforeMonth t.year 13 + 0 :=
    spanStart_lt hmonth t.day_sub_one_lt
  rwa [daysBeforeMonth_all] at hlt

theorem daysSince_lt_of_year (ht : epoch ≤ t.year) (h : t.year < t'.year) :
    t.daysSince epoch < t'.daysSince epoch := by
  have hyear : t.dayOfYear < yearLength (epoch + (t.year - epoch)) := by
    rw [Nat.add_sub_cancel' ht]
    exact t.dayOfYear_lt
  exact spanStart_lt (by omega) hyear

theorem dayOfYear_lt_of_month (hyear : t.year = t'.year) (h : t.month < t'.month) :
    t.dayOfYear < t'.dayOfYear := by
  have hpos := t.month_pos
  rw [dayOfYear, dayOfYear, ← hyear]
  exact spanStart_lt (by omega) t.day_sub_one_lt

theorem dayOfYear_lt_of_day (hyear : t.year = t'.year) (hmonth : t.month = t'.month)
    (h : t.day < t'.day) : t.dayOfYear < t'.dayOfYear := by
  have hpos := t.day_pos
  rw [dayOfYear, dayOfYear, hyear, hmonth]
  omega

theorem daysSince_lt_of_dayOfYear (hyear : t.year = t'.year) (h : t.dayOfYear < t'.dayOfYear) :
    t.daysSince epoch < t'.daysSince epoch := by
  rw [daysSince, daysSince, hyear]
  exact Nat.add_lt_add_left h _

theorem secondsSince_lt_of_days (h : t.daysSince epoch < t'.daysSince epoch) :
    t.secondsSince epoch < t'.secondsSince epoch := by
  have hhour := t.hour_lt
  have hminute := t.minute_lt
  have hsecond := t.second_lt
  rw [secondsSince, secondsSince]
  omega

/-- A later point of time is more seconds away. -/
theorem secondsSince_lt (ht : epoch ≤ t.year) (h : t < t') :
    t.secondsSince epoch < t'.secondsSince epoch := by
  have hfields : t.fields < t'.fields := h
  simp only [fields, List.cons_lt_cons_iff, List.not_lt_nil, and_false, or_false] at hfields
  rcases hfields with hyear | ⟨hyear, hmonth | ⟨hmonth, hday | ⟨hday, htime⟩⟩⟩
  · exact secondsSince_lt_of_days (daysSince_lt_of_year ht hyear)
  · apply secondsSince_lt_of_days
    exact daysSince_lt_of_dayOfYear hyear (dayOfYear_lt_of_month hyear hmonth)
  · apply secondsSince_lt_of_days
    exact daysSince_lt_of_dayOfYear hyear (dayOfYear_lt_of_day hyear hmonth hday)
  · have hdays : t.daysSince epoch = t'.daysSince epoch := by
      rw [daysSince, daysSince, dayOfYear, dayOfYear, hyear, hmonth, hday]
    have hminute := t.minute_lt
    have hsecond := t.second_lt
    rw [secondsSince, secondsSince, hdays]
    omega

theorem year_le_of_lt (h : t < t') : t.year ≤ t'.year := by
  have hfields : t.fields < t'.fields := h
  simp only [fields, List.cons_lt_cons_iff] at hfields
  omega

/-- Points of time as many seconds away are the same. -/
theorem fields_eq_of_secondsSince (ht : epoch ≤ t.year) (ht' : epoch ≤ t'.year)
    (h : t.secondsSince epoch = t'.secondsSince epoch) : t.fields = t'.fields := by
  rcases lt_trichotomy t.fields t'.fields with hlt | heq | hgt
  · exact absurd h (secondsSince_lt ht hlt).ne
  · exact heq
  · exact absurd h (secondsSince_lt ht' hgt).ne'

end CivilTime

end BmCore.Library
