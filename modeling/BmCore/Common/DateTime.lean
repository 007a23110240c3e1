import BmCore.Library.Calendar
import Mathlib.Data.Nat.Basic

/-!
# Dates and seconds

`utc_from_date_time` and `date_time_from_utc` of `common/util.c`: the one adds up the years and the
months before a date, the other takes years and months off the days since 1970 as long as there are
enough of them. They are inverse to each other on the seconds that 32 bits hold.
-/
namespace BmCore
open Library

/-- `UtcDateTime` -/
structure UtcDateTime where
  year : UInt16
  month : UInt8
  day : UInt8
  hour : UInt8
  min : UInt8
  sec : UInt8
  usec : UInt32
  deriving DecidableEq, Repr

/-- `leap_year`, of a year as an offset from 1970 -/
def leapYear (y : Int) : Bool :=
  1970 + y > 0 ∧ (1970 + y) % 4 = 0 ∧ ((1970 + y) % 100 ≠ 0 ∨ (1970 + y) % 400 = 0)

/-- `secs_per_day` -/
def secsPerDay : UInt32 := 3600 * 24

/-- `MONTH_DAYS` -/
def monthDays : List UInt8 := [31, 28, 31, 30, 31, 30, 31, 31, 30, 31, 30, 31]

/-- `MONTH_DAYS_LEAP_YEAR` -/
def monthDaysLeapYear : List UInt8 := [31, 29, 31, 30, 31, 30, 31, 31, 30, 31, 30, 31]

/-- The first loop of `utc_from_date_time`. -/
def addLeapDays (year : UInt16) (seconds : UInt32) : UInt32 :=
  (List.range' 1970 (year.toNat - 1970)).foldl
    (fun seconds (i : Nat) =>
      if leapYear ((i : Int) - 1970) then seconds + secsPerDay else seconds) seconds

/-- The second loop of `utc_from_date_time`. -/
def addMonths (year : UInt16) (month : UInt8) (seconds : UInt32) : UInt32 :=
  (List.range' 1 (month.toNat - 1)).foldl
    (fun seconds (i : Nat) =>
      if i = 2 ∧ leapYear ((year.toNat : Int) - 1970) then seconds + secsPerDay * 29
      else seconds + secsPerDay * (monthDays.getD (i - 1) 0).toUInt32) seconds

/-- `utc_from_date_time` -/
def utcFromDateTime (year : UInt16) (month day hour minute second : UInt8) : UInt32 :=
  -- seconds from 1970 till 1 jan 00:00:00 of the given year
  let seconds := (year.toUInt32 - 1970) * (secsPerDay * 365)
  let seconds := addLeapDays year seconds
  let seconds := addMonths year month seconds
  let seconds := seconds + (day.toUInt32 - 1) * secsPerDay
  let seconds := seconds + hour.toUInt32 * 3600
  let seconds := seconds + minute.toUInt32 * 60
  seconds + second.toUInt32

/-- `get_days_for_year` -/
def getDaysForYear (year : UInt32) : UInt32 :=
  if leapYear ((year.toNat : Int) - 1970) then 366 else 365

/-- `get_days_per_month` -/
def getDaysPerMonth (year : UInt32) : List UInt8 :=
  if leapYear ((year.toNat : Int) - 1970) then monthDaysLeapYear else monthDays

theorem getDaysForYear_pos (year : UInt32) : 0 < (getDaysForYear year).toUInt64.toNat := by
  rw [getDaysForYear]
  split_ifs <;> decide

/-- The first loop of `date_time_from_utc`: the days left and the year. -/
def takeYears (days : UInt64) (year : UInt16) : UInt64 × UInt16 :=
  if _ : (getDaysForYear year.toUInt32).toUInt64 ≤ days then
    takeYears (days - (getDaysForYear year.toUInt32).toUInt64) (year + 1)
  else (days, year)
termination_by days.toNat
decreasing_by
  have hle := UInt64.le_iff_toNat_le.mp ‹_ ≤ days›
  have hpos := getDaysForYear_pos year.toUInt32
  rw [UInt64.toNat_sub_of_le _ _ ‹_›]
  omega

/-- The second loop of `date_time_from_utc`, with what is left of the table: the days left and the
month. -/
def takeMonths : List UInt8 → (days : UInt64) → (month : UInt8) → UInt64 × UInt8
  -- the year has more days than are left, so no read goes behind the table
  | [], days, month => (days, month)
  | n :: table, days, month =>
    if n.toUInt64 ≤ days then takeMonths table (days - n.toUInt64) (month + 1) else (days, month)

/-- `date_time_from_utc` -/
def dateTimeFromUtc (utcUs : UInt64) : UtcDateTime :=
  let days := utcUs / 1000000 / secsPerDay.toUInt64
  let years := takeYears days 1970
  let months := takeMonths (getDaysPerMonth years.2.toUInt32) years.1 1
  let secondsRemaining := utcUs / 1000000 % secsPerDay.toUInt64
  { year := years.2
    month := months.2
    day := (months.1 + 1).toUInt8
    hour := (secondsRemaining / 3600).toUInt8
    min := (secondsRemaining / 60 % 60).toUInt8
    sec := (secondsRemaining % 60).toUInt8
    usec := (utcUs % 1000000).toUInt32 }

/-! ## The calendar behind the loops -/

/-- The macro is the rule of the calendar. -/
theorem leapYear_eq {year : Nat} (h : 0 < year) :
    leapYear ((year : Int) - 1970) = decide (IsLeapYear year) := by
  have hyear : 1970 + ((year : Int) - 1970) = year := by omega
  simp only [leapYear, hyear, IsLeapYear]
  apply decide_eq_decide.mpr
  omega

theorem getDaysForYear_toNat {year : UInt32} (h : 0 < year.toNat) :
    (getDaysForYear year).toNat = yearLength year.toNat := by
  rw [getDaysForYear, leapYear_eq h, yearLength]
  split_ifs with h₁ h₂ <;> simp_all

/-- The tables hold the lengths of the months. -/
theorem getDaysPerMonth_map {year : UInt32} (h : 0 < year.toNat) :
    (getDaysPerMonth year).map UInt8.toNat =
      (List.range 12).map fun i => monthLength year.toNat (1 + i) := by
  rw [getDaysPerMonth, leapYear_eq h]
  simp only [monthLength]
  by_cases hleap : IsLeapYear year.toNat
  · simp only [hleap, decide_true, if_true]
    rfl
  · simp only [hleap, decide_false, if_false]
    rfl

/-! ### Adding up -/

/-- A loop that adds `f i` in every round adds up their sum. -/
theorem foldl_add_ofNat {g : UInt32 → Nat → UInt32} {f : Nat → Nat} {l : List Nat}
    (h : ∀ s, ∀ i ∈ l, g s i = s + .ofNat (f i)) (init : Nat) :
    l.foldl g (.ofNat init) = .ofNat (init + (l.map f).sum) := by
  induction l generalizing init with
  | nil => simp
  | cons i l ih =>
    rw [List.foldl_cons, h _ i List.mem_cons_self, ← UInt32.ofNat_add,
      ih fun s j hj => h s j (List.mem_cons_of_mem i hj), List.map_cons, List.sum_cons,
      Nat.add_assoc]

/-- The years before a date, counted as years of 365 days and leap days. -/
theorem addLeapDays_eq {year : UInt16} (h : 1970 ≤ year.toNat) :
    addLeapDays year ((year.toUInt32 - 1970) * (secsPerDay * 365)) =
      .ofNat (daysBeforeYear 1970 year.toNat * 86400) := by
  have hinit : (year.toUInt32 - 1970) * (secsPerDay * 365) =
      .ofNat ((year.toNat - 1970) * (86400 * 365)) := by
    have hyear : year.toUInt32 = .ofNat year.toNat := UInt32.toNat_inj.mp (by simp)
    have hdays : secsPerDay * 365 = .ofNat (86400 * 365) := by decide
    rw [UInt32.ofNat_mul, UInt32.ofNat_sub h, hyear, hdays]
    rfl
  let leap (i : Nat) : Nat := if IsLeapYear i then 86400 else 0
  have hsum : ∀ n, n * (86400 * 365) + spanStart (fun i => leap (1970 + i)) n =
      spanStart (fun i => yearLength (1970 + i)) n * 86400 := by
    intro n
    induction n with
    | zero => simp
    | succ n ih =>
      have hyear : yearLength (1970 + n) * 86400 = 86400 * 365 + leap (1970 + n) := by
        simp only [leap, yearLength]
        split_ifs <;> rfl
      rw [spanStart_succ, spanStart_succ, Nat.add_mul, Nat.add_mul, Nat.one_mul, ← ih, hyear]
      ac_rfl
  rw [hinit, addLeapDays, foldl_add_ofNat (f := leap), sum_map_range', hsum]
  · rfl
  · intro s i hi
    have hpos : 0 < i := by
      have := (List.mem_range'_1.mp hi).1
      omega
    rw [leapYear_eq hpos]
    simp only [leap, decide_eq_true_eq]
    split_ifs
    · rfl
    · simp

/-- The months before a date. -/
theorem addMonths_eq {year : UInt16} {month : UInt8} (hyear : 0 < year.toNat)
    (hmonth : month.toNat ≤ 12) (init : Nat) : addMonths year month (.ofNat init) =
      .ofNat (init + daysBeforeMonth year.toNat month.toNat * 86400) := by
  have hlength : ∀ i, 1 ≤ i → i ≤ 12 →
      (if i = 2 ∧ leapYear ((year.toNat : Int) - 1970) then secsPerDay * 29
        else secsPerDay * (monthDays.getD (i - 1) 0).toUInt32) =
        .ofNat (86400 * monthLength year.toNat i) := by
    intro i hpos hle
    rw [leapYear_eq hyear, monthLength]
    by_cases hleap : IsLeapYear year.toNat
    · simp only [hleap, decide_true, and_true, if_true]
      interval_cases i <;> rfl
    · simp only [hleap, decide_false, Bool.false_eq_true, and_false, if_false]
      interval_cases i <;> rfl
  rw [addMonths, foldl_add_ofNat (f := fun i => 86400 * monthLength year.toNat i),
    sum_map_range', spanStart_mul, daysBeforeMonth, Nat.mul_comm 86400]
  intro s i hi
  have hi := List.mem_range'_1.mp hi
  rw [← hlength i hi.1 (by omega)]
  split_ifs <;> rfl

/-- A date as the code writes it: the fields are those of a point of time. -/
structure UtcDateTime.Shows (d : UtcDateTime) (t : CivilTime) : Prop where
  year : d.year.toNat = t.year
  month : d.month.toNat = t.month
  day : d.day.toNat = t.day
  hour : d.hour.toNat = t.hour
  min : d.min.toNat = t.minute
  sec : d.sec.toNat = t.second

/-- `utc_from_date_time` of the fields of a date -/
def UtcDateTime.utc (d : UtcDateTime) : UInt32 :=
  utcFromDateTime d.year d.month d.day d.hour d.min d.sec

/-- The seconds of a date since 1970, as many of them as 32 bits hold. -/
theorem UtcDateTime.Shows.utc_eq {d : UtcDateTime} {t : CivilTime} (h : d.Shows t)
    (ht : 1970 ≤ t.year) : d.utc = .ofNat (t.secondsSince 1970) := by
  have hyear : 1970 ≤ d.year.toNat := h.year ▸ ht
  have hmonth : d.month.toNat ≤ 12 := h.month ▸ t.month_le
  have hfield : ∀ x : UInt8, x.toUInt32 = .ofNat x.toNat := by
    intro x
    exact UInt32.toNat_inj.mp (by simp)
  have hday : d.day.toUInt32 - 1 = .ofNat (t.day - 1) := by
    rw [UInt32.ofNat_sub t.day_pos, ← h.day, hfield]
    rfl
  rw [utc, utcFromDateTime, addLeapDays_eq hyear, addMonths_eq (by omega) hmonth, hday]
  have hdays : secsPerDay = .ofNat 86400 := rfl
  have hhours : (3600 : UInt32) = .ofNat 3600 := rfl
  have hminutes : (60 : UInt32) = .ofNat 60 := rfl
  rw [hfield, hfield, hfield, h.year, h.month, h.hour, h.min, h.sec, hdays, hhours, hminutes,
    ← UInt32.ofNat_mul, ← UInt32.ofNat_mul, ← UInt32.ofNat_mul, ← UInt32.ofNat_add,
    ← UInt32.ofNat_add, ← UInt32.ofNat_add, ← UInt32.ofNat_add]
  apply congrArg UInt32.ofNat
  rw [CivilTime.secondsSince, CivilTime.daysSince, CivilTime.dayOfYear]
  omega

/-! ### Taking off -/

/-- The loop over the years stops in the year the days end in. -/
theorem takeYears_spec {days : UInt64} {year : UInt16} (hpos : 0 < year.toNat)
    (hyear : year.toNat + days.toNat / 365 < 2 ^ 16) :
    ∃ k, (takeYears days year).2.toNat = year.toNat + k ∧
      days.toNat = spanStart (fun i => yearLength (year.toNat + i)) k +
        (takeYears days year).1.toNat ∧
      (takeYears days year).1.toNat < yearLength (year.toNat + k) := by
  have hlength : ∀ year : UInt16, 0 < year.toNat →
      (getDaysForYear year.toUInt32).toUInt64.toNat = yearLength year.toNat := by
    intro year hpos
    have hto : year.toUInt32.toNat = year.toNat := by simp
    rw [UInt32.toNat_toUInt64, getDaysForYear_toNat (by omega), hto]
  fun_induction takeYears days year with
  | case1 days year hle ih =>
    have hle' := UInt64.le_iff_toNat_le.mp hle
    have hyearLength := hlength year hpos
    have hbound : 365 ≤ yearLength year.toNat := by
      rw [yearLength]
      split_ifs <;> omega
    have hrest : (days - (getDaysForYear year.toUInt32).toUInt64).toNat =
        days.toNat - yearLength year.toNat := by
      rw [UInt64.toNat_sub_of_le _ _ hle, hyearLength]
    have hnext : (year + 1).toNat = year.toNat + 1 := by
      rw [UInt16.toNat_add, UInt16.toNat_one]
      omega
    rw [hyearLength] at hle'
    obtain ⟨k, hk, hdays, hlt⟩ := ih (by omega) (by omega)
    rw [hnext] at hk hdays hlt
    rw [hrest] at hdays
    refine ⟨k + 1, by omega, ?_, ?_⟩
    · have hshift : spanStart (fun i => yearLength (year.toNat + (i + 1))) k =
          spanStart (fun i => yearLength (year.toNat + 1 + i)) k := by
        apply spanStart_congr
        intro i _
        rw [Nat.add_assoc, Nat.add_comm 1]
      rw [spanStart_succ', hshift, Nat.add_zero]
      omega
    · rwa [Nat.add_assoc, Nat.add_comm 1] at hlt
  | case2 days year hlt =>
    refine ⟨0, rfl, (Nat.zero_add _).symm, ?_⟩
    rw [Nat.add_zero, ← hlength year hpos]
    exact UInt64.lt_iff_toNat_lt.mp (UInt64.not_le.mp hlt)

/-- The loop over the months stops at the entry of the table the days end in. -/
theorem takeMonths_spec {table : List UInt8} {days : UInt64} {month : UInt8}
    (hdays : days.toNat < (table.map UInt8.toNat).sum)
    (hmonth : month.toNat + table.length < 2 ^ 8) :
    ∃ k, ∃ _ : k < table.length, (takeMonths table days month).2.toNat = month.toNat + k ∧
      days.toNat = ((table.map UInt8.toNat).take k).sum +
        (takeMonths table days month).1.toNat ∧
      (takeMonths table days month).1.toNat < table[k].toNat := by
  induction table generalizing days month with
  | nil => simp at hdays
  | cons n table ih =>
    rw [List.map_cons, List.sum_cons] at hdays
    rw [List.length_cons] at hmonth
    have hn : n.toUInt64.toNat = n.toNat := by simp
    rw [takeMonths]
    split_ifs with hle
    · have hle' := UInt64.le_iff_toNat_le.mp hle
      have hrest : (days - n.toUInt64).toNat = days.toNat - n.toNat := by
        rw [UInt64.toNat_sub_of_le _ _ hle, hn]
      have hnext : (month + 1).toNat = month.toNat + 1 := by
        rw [UInt8.toNat_add, UInt8.toNat_one]
        omega
      rw [hn] at hle'
      have hdays' : (days - n.toUInt64).toNat < (table.map UInt8.toNat).sum := by omega
      have hmonth' : (month + 1).toNat + table.length < 2 ^ 8 := by omega
      obtain ⟨k, hk, hmonth', hdays', hlt⟩ := ih hdays' hmonth'
      refine ⟨k + 1, Nat.succ_lt_succ hk, by omega, ?_, hlt⟩
      rw [List.map_cons, List.take_succ_cons, List.sum_cons]
      omega
    · refine ⟨0, Nat.succ_pos _, rfl, (Nat.zero_add _).symm, ?_⟩
      have hlt := UInt64.lt_iff_toNat_lt.mp (UInt64.not_le.mp hle)
      rwa [hn] at hlt

/-- The loop over the months of a year finds the month of a day of it. -/
theorem takeMonths_getDaysPerMonth {days : UInt64} {year : UInt32} (hyear : 0 < year.toNat)
    (hdays : days.toNat < yearLength year.toNat) :
    ∃ k < 12, (takeMonths (getDaysPerMonth year) days 1).2.toNat = 1 + k ∧
      days.toNat = daysBeforeMonth year.toNat (1 + k) +
        (takeMonths (getDaysPerMonth year) days 1).1.toNat ∧
      (takeMonths (getDaysPerMonth year) days 1).1.toNat < monthLength year.toNat (1 + k) := by
  have hmap := getDaysPerMonth_map hyear
  have hlength : (getDaysPerMonth year).length = 12 := by
    simpa using congrArg List.length hmap
  have htake : ∀ k ≤ 12, (((getDaysPerMonth year).map UInt8.toNat).take k).sum =
      daysBeforeMonth year.toNat (1 + k) := by
    intro k hk
    rw [hmap, ← List.map_take, List.take_range, Nat.min_eq_left hk, daysBeforeMonth,
      Nat.add_sub_cancel_left]
    rfl
  have hall : days.toNat < ((getDaysPerMonth year).map UInt8.toNat).sum := by
    have hsum := htake 12 (Nat.le_refl _)
    rw [List.take_of_length_le (by simp [hlength]), daysBeforeMonth_all] at hsum
    rwa [hsum]
  have hone : (1 : UInt8).toNat + (getDaysPerMonth year).length < 2 ^ 8 := by
    rw [hlength]
    decide
  obtain ⟨k, hk, hmonth, hrest, hlt⟩ := takeMonths_spec hall hone
  have hk' : k < 12 := hlength ▸ hk
  have hentry : (getDaysPerMonth year)[k].toNat = monthLength year.toNat (1 + k) := by
    have hget := congrArg (·[k]?) hmap
    simpa [hk, hk'] using hget
  rw [hentry] at hlt
  rw [htake k hk'.le] at hrest
  exact ⟨k, hk', hmonth, hrest, hlt⟩

theorem monthLength_le (year month : Nat) : monthLength year month ≤ 31 := by
  rw [monthLength]
  split_ifs <;> omega

/-- The two loops find the year, the month and the day of a number of days since 1970. -/
theorem takeDate_spec {days : UInt64} (hdays : days.toNat ≤ 2 ^ 32 / 86400) :
    let years := takeYears days 1970
    let months := takeMonths (getDaysPerMonth years.2.toUInt32) years.1 1
    1970 ≤ years.2.toNat ∧ 1 ≤ months.2.toNat ∧ months.2.toNat ≤ 12 ∧
      months.1.toNat < monthLength years.2.toNat months.2.toNat ∧
      days.toNat = daysBeforeYear 1970 years.2.toNat +
        (daysBeforeMonth years.2.toNat months.2.toNat + months.1.toNat) := by
  intro years months
  have hbound : (1970 : UInt16).toNat + days.toNat / 365 < 2 ^ 16 := by
    have hdiv : days.toNat / 365 ≤ 2 ^ 32 / 86400 := (Nat.div_le_self _ _).trans hdays
    change 1970 + _ < _
    omega
  obtain ⟨k, hyear, hsum, hlt⟩ := takeYears_spec (by decide) hbound
  have hyear : years.2.toNat = 1970 + k := hyear
  have hyear32 : years.2.toUInt32.toNat = years.2.toNat := by simp
  have hrest : years.1.toNat < yearLength years.2.toUInt32.toNat := by
    rw [hyear32, hyear]
    exact hlt
  obtain ⟨m, hm, hmonth, hsum', hlt'⟩ := takeMonths_getDaysPerMonth (by omega) hrest
  have hmonth : months.2.toNat = 1 + m := hmonth
  rw [hyear32, ← hmonth] at hsum' hlt'
  refine ⟨by omega, by omega, by omega, hlt', ?_⟩
  have hbefore : daysBeforeYear 1970 years.2.toNat =
      spanStart (fun i => yearLength (1970 + i)) k := by
    rw [daysBeforeYear, hyear, Nat.add_sub_cancel_left]
  rw [hbefore, ← hsum']
  exact hsum

theorem toNat_toUInt8 {x : UInt64} {n : Nat} (hx : x.toNat = n) (hn : n < 2 ^ 8) :
    x.toUInt8.toNat = n := by
  rw [UInt64.toNat_toUInt8, hx]
  exact Nat.mod_eq_of_lt hn

/-- A day of the calendar and a second of the day make up a point of time. -/
theorem exists_shows {year : UInt16} {month : UInt8} {dayOfMonth rem : UInt64} (usec : UInt32)
    {days : Nat} (hyear : 1970 ≤ year.toNat) (hpos : 1 ≤ month.toNat) (hle : month.toNat ≤ 12)
    (hday : dayOfMonth.toNat < monthLength year.toNat month.toNat)
    (hdays : days = daysBeforeYear 1970 year.toNat +
      (daysBeforeMonth year.toNat month.toNat + dayOfMonth.toNat)) (hrem : rem.toNat < 86400) :
    ∃ t : CivilTime, 1970 ≤ t.year ∧ t.secondsSince 1970 = days * 86400 + rem.toNat ∧
      UtcDateTime.Shows ⟨year, month, (dayOfMonth + 1).toUInt8, (rem / 3600).toUInt8,
        (rem / 60 % 60).toUInt8, (rem % 60).toUInt8, usec⟩ t := by
  have hhourSecs : (3600 : UInt64).toNat = 3600 := rfl
  have hminuteSecs : (60 : UInt64).toNat = 60 := rfl
  have hshort := monthLength_le year.toNat month.toNat
  let t : CivilTime :=
    { year := year.toNat
      month := month.toNat
      day := dayOfMonth.toNat + 1
      hour := rem.toNat / 3600
      minute := rem.toNat / 60 % 60
      second := rem.toNat % 60
      month_pos := hpos
      month_le := hle
      day_pos := Nat.le_add_left _ _
      day_le := hday
      hour_lt := by omega
      minute_lt := by omega
      second_lt := by omega }
  have hdaysSince : t.daysSince 1970 = days := by
    rw [CivilTime.daysSince, CivilTime.dayOfYear, hdays]
    change _ + (_ + (dayOfMonth.toNat + 1 - 1)) = _
    rw [Nat.add_sub_cancel]
  have hseconds : t.secondsSince 1970 = days * 86400 + rem.toNat := by
    rw [CivilTime.secondsSince, hdaysSince]
    change days * 86400 + rem.toNat / 3600 * 3600 + rem.toNat / 60 % 60 * 60 + rem.toNat % 60 = _
    omega
  refine ⟨t, hyear, hseconds, ⟨rfl, rfl, ?_, ?_, ?_, ?_⟩⟩
  · apply toNat_toUInt8
    · rw [UInt64.toNat_add, UInt64.toNat_one]
      exact Nat.mod_eq_of_lt (by omega)
    · change dayOfMonth.toNat + 1 < _
      omega
  · apply toNat_toUInt8
    · rw [UInt64.toNat_div, hhourSecs]
    · exact Nat.lt_trans t.hour_lt (by decide)
  · apply toNat_toUInt8
    · rw [UInt64.toNat_mod, UInt64.toNat_div, hminuteSecs]
    · exact Nat.lt_trans t.minute_lt (by decide)
  · apply toNat_toUInt8
    · rw [UInt64.toNat_mod, hminuteSecs]
    · exact Nat.lt_trans t.second_lt (by decide)

/-- The date of a number of microseconds is the point of time that many seconds after 1970. -/
theorem dateTimeFromUtc_spec {s us : Nat} (hs : s < 2 ^ 32) (hus : us < 1000000) :
    ∃ t : CivilTime, 1970 ≤ t.year ∧ t.secondsSince 1970 = s ∧
      (dateTimeFromUtc (.ofNat (s * 1000000 + us))).Shows t ∧
      (dateTimeFromUtc (.ofNat (s * 1000000 + us))).usec.toNat = us := by
  generalize hutc : UInt64.ofNat (s * 1000000 + us) = utcUs
  have hutc' : utcUs.toNat = s * 1000000 + us := by
    rw [← hutc, UInt64.toNat_ofNat']
    exact Nat.mod_eq_of_lt (by omega)
  have hmicros : (1000000 : UInt64).toNat = 1000000 := rfl
  have hdaySecs : secsPerDay.toUInt64.toNat = 86400 := rfl
  have hsec : (utcUs / 1000000).toNat = s := by
    rw [UInt64.toNat_div, hutc', hmicros]
    omega
  have husec : (utcUs % 1000000).toUInt32.toNat = us := by
    rw [UInt64.toNat_toUInt32, UInt64.toNat_mod, hutc', hmicros]
    omega
  have hdays : (utcUs / 1000000 / secsPerDay.toUInt64).toNat = s / 86400 := by
    rw [UInt64.toNat_div, hsec, hdaySecs]
  have hrem : (utcUs / 1000000 % secsPerDay.toUInt64).toNat = s % 86400 := by
    rw [UInt64.toNat_mod, hsec, hdaySecs]
  have hbound : s / 86400 ≤ 2 ^ 32 / 86400 := Nat.div_le_div_right hs.le
  obtain ⟨hyear, hpos, hle, hday, hsum⟩ := takeDate_spec (hdays ▸ hbound)
  obtain ⟨t, ht, hseconds, hshows⟩ := exists_shows (utcUs % 1000000).toUInt32 hyear hpos hle hday
    hsum (hrem ▸ Nat.mod_lt s (by decide))
  refine ⟨t, ht, ?_, hshows, husec⟩
  rw [hseconds, hdays, hrem]
  exact Nat.div_add_mod' s 86400

/-- Dates that show the same point of time differ in their microseconds only. -/
theorem UtcDateTime.Shows.eq_of_fields {d d' : UtcDateTime} {t t' : CivilTime} (h : d.Shows t)
    (h' : d'.Shows t') (hfields : t.fields = t'.fields) : d' = { d with usec := d'.usec } := by
  simp only [CivilTime.fields, List.cons.injEq, and_true] at hfields
  obtain ⟨hyear, hmonth, hday, hhour, hminute, hsecond⟩ := hfields
  obtain ⟨year, month, day, hour, min, sec, usec⟩ := d
  obtain ⟨year', month', day', hour', min', sec', usec'⟩ := d'
  simp only [UtcDateTime.mk.injEq, and_true, ← UInt16.toNat_inj, ← UInt8.toNat_inj]
  exact ⟨h'.year.trans (hyear.symm.trans h.year.symm),
    h'.month.trans (hmonth.symm.trans h.month.symm), h'.day.trans (hday.symm.trans h.day.symm),
    h'.hour.trans (hhour.symm.trans h.hour.symm), h'.min.trans (hminute.symm.trans h.min.symm),
    h'.sec.trans (hsecond.symm.trans h.sec.symm)⟩

/-- **Seconds and dates are inverse to each other.** Of every number of seconds below 2^32 the date
is a point of time of the calendar whose seconds are that number; the date of the seconds of every
point of time from 1970 that has less than 2^32 of them is that point of time; and later points of
time have more seconds. -/
theorem date_time_utc_round_trip :
    (∀ s us : Nat, s < 2 ^ 32 → us < 1000000 →
      let d := dateTimeFromUtc (.ofNat (s * 1000000 + us))
      (∃ t : CivilTime, 1970 ≤ t.year ∧ d.Shows t ∧ t.secondsSince 1970 = s) ∧
        d.usec.toNat = us ∧ d.utc.toNat = s) ∧
    (∀ (t : CivilTime) (d : UtcDateTime), 1970 ≤ t.year → t.secondsSince 1970 < 2 ^ 32 →
      d.Shows t → dateTimeFromUtc (d.utc.toUInt64 * 1000000) = { d with usec := 0 }) ∧
    ∀ (t t' : CivilTime) (d d' : UtcDateTime), 1970 ≤ t.year → t'.secondsSince 1970 < 2 ^ 32 →
      d.Shows t → d'.Shows t' → t < t' → d.utc < d'.utc := by
  refine ⟨?_, ?_, ?_⟩
  · intro s us hs hus d
    obtain ⟨t, ht, hseconds, hshows, husec⟩ := dateTimeFromUtc_spec hs hus
    refine ⟨⟨t, ht, hshows, hseconds⟩, husec, ?_⟩
    rw [hshows.utc_eq ht, hseconds, UInt32.toNat_ofNat']
    exact Nat.mod_eq_of_lt hs
  · intro t d ht hbound hshows
    have hutc : d.utc.toUInt64 * 1000000 = .ofNat (t.secondsSince 1970 * 1000000 + 0) := by
      have hto : d.utc.toUInt64 = .ofNat (t.secondsSince 1970) := by
        rw [← UInt64.toNat_inj, UInt32.toNat_toUInt64, hshows.utc_eq ht, UInt32.toNat_ofNat',
          UInt64.toNat_ofNat']
        omega
      rw [hto, Nat.add_zero, UInt64.ofNat_mul]
      rfl
    obtain ⟨t', ht', hseconds, hshows', husec⟩ :=
      dateTimeFromUtc_spec hbound (by decide : 0 < 1000000)
    have hfields := CivilTime.fields_eq_of_secondsSince ht ht' hseconds.symm
    have husec' : (dateTimeFromUtc (.ofNat (t.secondsSince 1970 * 1000000 + 0))).usec = 0 :=
      UInt32.toNat_inj.mp husec
    rw [hutc, hshows.eq_of_fields hshows' hfields, husec']
  · intro t t' d d' ht hbound hshows hshows' hlt
    have hseconds := CivilTime.secondsSince_lt ht hlt
    have ht' : 1970 ≤ t'.year := ht.trans (CivilTime.year_le_of_lt hlt)
    rw [UInt32.lt_iff_toNat_lt, hshows.utc_eq ht, hshows'.utc_eq ht', UInt32.toNat_ofNat',
      UInt32.toNat_ofNat']
    omega

/-- The last second of a leap day and the first one after it. -/
theorem date_time_utc_round_trip_leap_day :
    let d : UtcDateTime := ⟨1972, 2, 29, 23, 59, 59, 7⟩
    let d' : UtcDateTime := ⟨1972, 3, 1, 0, 0, 0, 0⟩
    (dateTimeFromUtc (.ofNat (68255999 * 1000000 + 7))).utc.toNat = 68255999 ∧
      dateTimeFromUtc (d.utc.toUInt64 * 1000000) = { d with usec := 0 } ∧ d.utc < d'.utc := by
  intro d d'
  let t : CivilTime := ⟨1972, 2, 29, 23, 59, 59, by decide, by decide, by decide, by decide,
    by decide, by decide, by decide⟩
  let t' : CivilTime := ⟨1972, 3, 1, 0, 0, 0, by decide, by decide, by decide, by decide,
    by decide, by decide, by decide⟩
  have hd : d.Shows t := ⟨rfl, rfl, rfl, rfl, rfl, rfl⟩
  have hd' : d'.Shows t' := ⟨rfl, rfl, rfl, rfl, rfl, rfl⟩
  have ht : 1970 ≤ t.year := by decide
  have hlt : t < t' := by
    change t.fields < t'.fields
    decide
  exact ⟨(date_time_utc_round_trip.1 68255999 7 (by decide) (by decide)).2.2,
    date_time_utc_round_trip.2.1 t d ht (by decide) hd,
    date_time_utc_round_trip.2.2 t t' d d' ht (by decide) hd hd' hlt⟩

end BmCore
