/-
  What the rendering of dates gives (`src/time/`).

  Components are checked by a round trip through `Date.UTC` and the UTC getters, in which fields roll
  over and the years 0 to 99 are moved.

  1. **Days** (`civilFromDays_daysFromCivil`, `daysFromCivil_lt_iff`).  The months are consecutive
     blocks of days, as long as the calendar says (`consecutive_months`).  So day numbers and
     existing dates determine each other, and their orders agree.
  2. **The round trip** (`isSome_componentsToUtcIso_iff`).  What does not exist is read back as
     something else, and so is a year that is moved.
  3. **The texts** (`toList_componentsToUtcIso`).  They are decimals of fixed widths, so that they
     are read back as their components and ordered as their instants.
  4. **Epochs** (`epochToUtcIso_eq`).  The text of an epoch is the text of the components of its
     instant.

  The crux is that the round trip ends at an EXISTING date whatever it begins with
  (`civilFromDays_exists`).
-/
import ReplaysFetcher.Time
import ReplaysFetcher.Data.Blocks
import ReplaysFetcher.Data.Decimal
import Mathlib.Tactic.IntervalCases

namespace ReplaysFetcher.Calendar

/-! ## The calendar -/

/-- A leap year of the proleptic Gregorian calendar. -/
def IsLeapYear (year : ℤ) : Prop := year % 4 = 0 ∧ (year % 100 ≠ 0 ∨ year % 400 = 0)

instance (year : ℤ) : Decidable (IsLeapYear year) := by
  unfold IsLeapYear
  infer_instance

def daysInMonth (year month : ℤ) : ℤ :=
  if month = 2 then if IsLeapYear year then 29 else 28
  else if month = 4 ∨ month = 6 ∨ month = 9 ∨ month = 11 then 30 else 31

/-- The date exists in the calendar. -/
structure DateExists (year month day : ℤ) : Prop where
  month_pos : 1 ≤ month
  month_le : month ≤ 12
  day_pos : 1 ≤ day
  day_le : day ≤ daysInMonth year month

theorem daysInMonth_pos (year month : ℤ) : 0 < daysInMonth year month := by
  unfold daysInMonth
  split <;> split <;> decide

/-- The twelve months, with how long each is. -/
theorem daysInMonth_cases (year : ℤ) {month : ℤ} (hpos : 1 ≤ month) (hle : month ≤ 12) :
    (month = 2 ∧ (IsLeapYear year ∧ daysInMonth year month = 29 ∨
      ¬ IsLeapYear year ∧ daysInMonth year month = 28)) ∨
    ((month = 4 ∨ month = 6 ∨ month = 9 ∨ month = 11) ∧ daysInMonth year month = 30) ∨
    ((month = 1 ∨ month = 3 ∨ month = 5 ∨ month = 7 ∨ month = 8 ∨ month = 10 ∨ month = 12) ∧
      daysInMonth year month = 31) := by
  unfold daysInMonth
  split
  · rename_i hmonth
    refine Or.inl ⟨hmonth, ?_⟩
    split
    · rename_i hleap
      exact Or.inl ⟨hleap, rfl⟩
    · rename_i hleap
      exact Or.inr ⟨hleap, rfl⟩
  · split
    · rename_i hmonth
      exact Or.inr (Or.inl ⟨hmonth, rfl⟩)
    · exact Or.inr (Or.inr ⟨by omega, rfl⟩)

/-! ## Days -/

/-- The day number without cycles: a year starts in March. -/
theorem daysFromCivil_eq (year month day : ℤ) : daysFromCivil year month day =
    (if month ≤ 2 then year - 1 else year) * 365 + (if month ≤ 2 then year - 1 else year) / 4 -
      (if month ≤ 2 then year - 1 else year) / 100 +
      (if month ≤ 2 then year - 1 else year) / 400 +
      ((153 * (if month > 2 then month - 3 else month + 9) + 2) / 5 + day - 1) - 719468 := by
  unfold daysFromCivil
  dsimp only
  simp only [Int.fdiv_eq_ediv_of_nonneg _ (show (0 : ℤ) ≤ 400 by decide),
    Int.fdiv_eq_ediv_of_nonneg _ (show (0 : ℤ) ≤ 4 by decide),
    Int.fdiv_eq_ediv_of_nonneg _ (show (0 : ℤ) ≤ 100 by decide),
    Int.fdiv_eq_ediv_of_nonneg _ (show (0 : ℤ) ≤ 5 by decide)]
  generalize (if month ≤ 2 then year - 1 else year) = y
  generalize (153 * (if month > 2 then month - 3 else month + 9) + 2) / 5 + day - 1 = doy
  have hfour : (y - y / 400 * 400) / 4 = y / 4 - 100 * (y / 400) := by omega
  have hhundred : (y - y / 400 * 400) / 100 = y / 100 - 4 * (y / 400) := by omega
  rw [hfour, hhundred]
  omega

/-- The year and the month of a month's index. -/
def monthStart (index : ℤ) : ℤ := daysFromCivil (index / 12) (index % 12 + 1) 1

def monthLength (index : ℤ) : ℤ := daysInMonth (index / 12) (index % 12 + 1)

theorem daysFromCivil_eq_number (year : ℤ) {month : ℤ} (hpos : 1 ≤ month) (hle : month ≤ 12)
    (day : ℤ) :
    daysFromCivil year month day = monthStart (12 * year + (month - 1)) + (day - 1) := by
  have hyear : (12 * year + (month - 1)) / 12 = year := by omega
  have hmonth : (12 * year + (month - 1)) % 12 + 1 = month := by omega
  unfold monthStart
  rw [hyear, hmonth, daysFromCivil_eq, daysFromCivil_eq]
  omega

/-- **The months follow one another.** -/
theorem consecutive_months : Blocks.Consecutive monthStart monthLength where
  next index := by
    unfold monthStart monthLength
    obtain ⟨year, month, hindex, hpos, hle⟩ : ∃ year month : ℤ,
        index = 12 * year + (month - 1) ∧ 1 ≤ month ∧ month ≤ 12 :=
      ⟨index / 12, index % 12 + 1, by omega, by omega, by omega⟩
    have hyear : index / 12 = year := by omega
    have hmonth : index % 12 + 1 = month := by omega
    rw [hyear, hmonth]
    by_cases hlast : month = 12
    · have hyear' : (index + 1) / 12 = year + 1 := by omega
      have hmonth' : (index + 1) % 12 + 1 = 1 := by omega
      rw [hyear', hmonth', hlast, daysFromCivil_eq, daysFromCivil_eq]
      have hlength : daysInMonth year 12 = 31 := rfl
      rw [hlength]
      norm_num
      omega
    · have hyear' : (index + 1) / 12 = year := by omega
      have hmonth' : (index + 1) % 12 + 1 = month + 1 := by omega
      rw [hyear', hmonth', daysFromCivil_eq, daysFromCivil_eq]
      have hcases := daysInMonth_cases year hpos hle
      unfold IsLeapYear at hcases
      have hlt : month < 12 := by omega
      clear hle hlast hmonth hmonth' hindex hyear hyear'
      -- month by month; the end of February is the end of a year
      interval_cases month <;> norm_num at hcases ⊢ <;> omega
  pos index := daysInMonth_pos _ _

/-- Later dates have larger day numbers, and the other way around. -/
theorem daysFromCivil_lt_iff {year month day year' month' day' : ℤ}
    (h : DateExists year month day) (h' : DateExists year' month' day') :
    daysFromCivil year month day < daysFromCivil year' month' day' ↔
      year < year' ∨ year = year' ∧ (month < month' ∨ month = month' ∧ day < day') := by
  have hmonths : ∀ {year month day : ℤ}, DateExists year month day →
      Blocks.Within monthLength (12 * year + (month - 1)) (day - 1) := by
    intro year month day h
    have hyear : (12 * year + (month - 1)) / 12 = year := by
      have := h.month_pos
      have := h.month_le
      omega
    have hmonth : (12 * year + (month - 1)) % 12 + 1 = month := by
      have := h.month_pos
      have := h.month_le
      omega
    refine ⟨sub_nonneg.2 h.day_pos, ?_⟩
    unfold monthLength
    rw [hyear, hmonth]
    exact Int.sub_one_lt_of_le h.day_le
  have hpos := h.month_pos
  have hle := h.month_le
  have hpos' := h'.month_pos
  have hle' := h'.month_le
  rw [daysFromCivil_eq_number year hpos hle, daysFromCivil_eq_number year' hpos' hle',
    consecutive_months.number_lt_iff (hmonths h) (hmonths h')]
  omega

/-- Every day number is that of an existing date. -/
theorem exists_date (days : ℤ) : ∃ year month day, DateExists year month day ∧
    daysFromCivil year month day = days := by
  obtain ⟨index, offset, ⟨hnonneg, hlt⟩, hnumber⟩ := consecutive_months.exists_place days
  have hindex : 12 * (index / 12) + (index % 12 + 1 - 1) = index := by omega
  refine ⟨index / 12, index % 12 + 1, offset + 1, ⟨by omega, by omega, by omega, ?_⟩, ?_⟩
  · exact Int.add_one_le_of_lt hlt
  · rw [daysFromCivil_eq_number _ (by omega) (by omega), hindex, add_sub_cancel_right, hnumber]

/-- The year of a day of the 400-year cycle; the last day of a year that is a leap year is its
    366th. -/
theorem yearOfEra {yoe doy doe : ℤ} (hyoe : 0 ≤ yoe ∧ yoe < 400) (hdoy : 0 ≤ doy ∧ doy ≤ 365)
    (hleap : doy = 365 → IsLeapYear (yoe + 1))
    (hdoe : doe = yoe * 365 + yoe / 4 - yoe / 100 + doy) :
    (doe - doe / 1460 + doe / 36524 - doe / 146096) / 365 = yoe := by
  -- the century, the fours in it, and the year in these
  obtain ⟨a, r, ha, hr, s, hs, rfl⟩ : ∃ a r, (0 ≤ a ∧ a ≤ 3) ∧ (0 ≤ r ∧ r ≤ 24) ∧
      ∃ s, (0 ≤ s ∧ s ≤ 3) ∧ yoe = 100 * a + 4 * r + s :=
    ⟨yoe / 100, yoe % 100 / 4, by omega, by omega, yoe % 4, by omega⟩
  have hfours : (100 * a + 4 * r + s) / 4 = 25 * a + r := by omega
  have hhundreds : (100 * a + 4 * r + s) / 100 = a := by omega
  rw [hfours, hhundreds] at hdoe
  have hlast : doy ≤ 364 ∨ (doy = 365 ∧ s = 3 ∧ (r ≤ 23 ∨ a = 3)) := by
    by_cases hday : doy = 365
    · have h := hleap hday
      unfold IsLeapYear at h
      exact Or.inr ⟨hday, by omega, by omega⟩
    · exact Or.inl (by omega)
  have hfour : (24 * a + r + 365 * s + doy < 1460 ∧ doe / 1460 = 25 * a + r) ∨
      (1460 ≤ 24 * a + r + 365 * s + doy ∧ doe / 1460 = 25 * a + r + 1) := by
    rcases hlast with h | h <;> omega
  have hcentury : (doe ≠ 146096 ∧ doe / 36524 = a ∧ doe / 146096 = 0) ∨
      (doe = 146096 ∧ doe / 36524 = 4 ∧ doe / 146096 = 1) := by
    rcases hlast with h | h <;> omega
  rcases hcentury with ⟨_, hcentury, hcycle⟩ | ⟨rfl, _, _⟩
  · rw [hcentury, hcycle]
    rcases hfour with ⟨ht, hfour⟩ | ⟨ht, hfour⟩
    · rw [hfour]
      rcases hlast with h | h <;> omega
    · rw [hfour]
      rcases hlast with h | h <;> omega
  · rcases hlast with h | h <;> omega

/-- The months before a month, in a year that starts in March. -/
def marchMonth (month : ℤ) : ℤ := if month > 2 then month - 3 else month + 9

/-- The day of such a year, from 0 on. -/
def dayOfYear (month day : ℤ) : ℤ := (153 * marchMonth month + 2) / 5 + day - 1

/-- A year that starts in March has 365 days, and one more exactly when it ends with a leap day. -/
theorem dayOfYear_bounds {year month day : ℤ} (h : DateExists year month day) :
    0 ≤ dayOfYear month day ∧ dayOfYear month day ≤ 365 ∧
      (dayOfYear month day = 365 → month = 2 ∧ IsLeapYear year) := by
  obtain ⟨hpos, hle, hday, hlast⟩ := h
  have hcases := daysInMonth_cases year hpos hle
  unfold dayOfYear marchMonth
  by_cases hfebruary : month = 2
  · subst hfebruary
    norm_num at hcases ⊢
    refine ⟨by omega, by omega, fun hend => ?_⟩
    rcases hcases with ⟨hleap, hlength⟩ | ⟨_, hlength⟩
    · exact hleap
    · omega
  · have hshort : daysInMonth year month ≤ 31 := by omega
    have hthirty : month = 4 ∨ month = 6 ∨ month = 9 ∨ month = 11 → daysInMonth year month ≤ 30 := by
      omega
    have hmonths : month = 1 ∨ 3 ≤ month := by omega
    clear hcases hfebruary
    rcases hmonths with rfl | hfrom
    · norm_num
      omega
    · interval_cases month <;> norm_num at hthirty ⊢ <;> omega

/-- The day of the year has the month and the day. -/
theorem month_of_dayOfYear {year month day : ℤ} (h : DateExists year month day) :
    (5 * dayOfYear month day + 2) / 153 = marchMonth month := by
  obtain ⟨hpos, hle, hday, hlast⟩ := h
  have hcases := daysInMonth_cases year hpos hle
  have hlong : daysInMonth year month ≤ 31 ∧ (month = 2 → daysInMonth year month ≤ 29) ∧
      (month = 4 ∨ month = 6 ∨ month = 9 ∨ month = 11 → daysInMonth year month ≤ 30) := by
    omega
  clear hcases
  unfold dayOfYear marchMonth
  interval_cases month <;> norm_num at hlong ⊢ <;> omega

/-- **An existing date is read back from its day number.** -/
theorem civilFromDays_daysFromCivil {year month day : ℤ} (h : DateExists year month day) :
    civilFromDays (daysFromCivil year month day) = { year, month, day } := by
  obtain ⟨hnonneg, hle, hend⟩ := dayOfYear_bounds h
  have hmp := month_of_dayOfYear h
  -- the year that starts in March, in its cycle
  obtain ⟨y, hy⟩ : ∃ y, y = if month ≤ 2 then year - 1 else year := ⟨_, rfl⟩
  have hleap : dayOfYear month day = 365 → IsLeapYear (y % 400 + 1) := by
    intro hday
    obtain ⟨hmonth, hleap⟩ := hend hday
    rw [if_pos (by omega)] at hy
    unfold IsLeapYear at hleap ⊢
    omega
  have hdoe : daysFromCivil year month day + 719468 - (y / 400) * 146097 =
      y % 400 * 365 + y % 400 / 4 - y % 400 / 100 + dayOfYear month day := by
    rw [daysFromCivil_eq, ← hy]
    unfold dayOfYear marchMonth
    omega
  have hera : (daysFromCivil year month day + 719468) / 146097 = y / 400 := by
    omega
  have hyoe := yearOfEra (by omega) ⟨hnonneg, hle⟩ hleap hdoe
  unfold civilFromDays
  dsimp only
  simp only [Int.fdiv_eq_ediv_of_nonneg _ (show (0 : ℤ) ≤ 146097 by decide),
    Int.fdiv_eq_ediv_of_nonneg _ (show (0 : ℤ) ≤ 1460 by decide),
    Int.fdiv_eq_ediv_of_nonneg _ (show (0 : ℤ) ≤ 36524 by decide),
    Int.fdiv_eq_ediv_of_nonneg _ (show (0 : ℤ) ≤ 146096 by decide),
    Int.fdiv_eq_ediv_of_nonneg _ (show (0 : ℤ) ≤ 365 by decide),
    Int.fdiv_eq_ediv_of_nonneg _ (show (0 : ℤ) ≤ 4 by decide),
    Int.fdiv_eq_ediv_of_nonneg _ (show (0 : ℤ) ≤ 100 by decide),
    Int.fdiv_eq_ediv_of_nonneg _ (show (0 : ℤ) ≤ 153 by decide),
    Int.fdiv_eq_ediv_of_nonneg _ (show (0 : ℤ) ≤ 5 by decide)]
  rw [hera, hyoe, hdoe]
  have hdoy : y % 400 * 365 + y % 400 / 4 - y % 400 / 100 + dayOfYear month day -
      (365 * (y % 400) + y % 400 / 4 - y % 400 / 100) = dayOfYear month day := by omega
  rw [hdoy, hmp]
  have hday : dayOfYear month day - (153 * marchMonth month + 2) / 5 + 1 = day := by
    unfold dayOfYear
    omega
  have hmonth : (if marchMonth month < 10 then marchMonth month + 3 else marchMonth month - 9) =
      month := by
    have hpos := h.month_pos
    have hle := h.month_le
    unfold marchMonth
    split <;> split <;> omega
  rw [hday, hmonth]
  congr 1
  split at hy <;> rename_i hmarch
  · rw [if_pos hmarch]
    omega
  · rw [if_neg hmarch]
    omega

theorem daysFromCivil_inj {year month day year' month' day' : ℤ}
    (h : DateExists year month day) (h' : DateExists year' month' day') :
    daysFromCivil year month day = daysFromCivil year' month' day' ↔
      year = year' ∧ month = month' ∧ day = day' := by
  constructor
  · intro heq
    have hdates := congrArg civilFromDays heq
    rw [civilFromDays_daysFromCivil h, civilFromDays_daysFromCivil h'] at hdates
    cases hdates
    exact ⟨rfl, rfl, rfl⟩
  · rintro ⟨rfl, rfl, rfl⟩
    rfl

/-- **The date of a day number exists**, and the number is its own. -/
theorem civilFromDays_exists (days : ℤ) :
    DateExists (civilFromDays days).year (civilFromDays days).month (civilFromDays days).day ∧
      daysFromCivil (civilFromDays days).year (civilFromDays days).month (civilFromDays days).day =
        days := by
  obtain ⟨year, month, day, hexists, rfl⟩ := exists_date days
  rw [civilFromDays_daysFromCivil hexists]
  exact ⟨hexists, rfl⟩

/-! ## Times of day -/

structure TimeExists (hour minute second : ℤ) : Prop where
  hour_nonneg : 0 ≤ hour
  hour_lt : hour < 24
  minute_nonneg : 0 ≤ minute
  minute_lt : minute < 60
  second_nonneg : 0 ≤ second
  second_lt : second < 60

/-- The instant of a day number and a time of day. -/
def instantOf (days hour minute second : ℤ) : Date :=
  days * msPerDay + hour * 3600000 + minute * 60000 + second * 1000

theorem fdiv_instantOf {hour minute second : ℤ} (h : TimeExists hour minute second) (days : ℤ) :
    (instantOf days hour minute second).fdiv msPerDay = days := by
  obtain ⟨hhour, hhour', hminute, hminute', hsecond, hsecond'⟩ := h
  unfold instantOf msPerDay
  rw [Int.fdiv_eq_ediv_of_nonneg _ (by decide)]
  omega

/-- The getters read back the day and the time of an instant. -/
theorem getters_instantOf {hour minute second : ℤ} (h : TimeExists hour minute second) (days : ℤ) :
    Date.civil (instantOf days hour minute second) = civilFromDays days ∧
      Date.getUTCHours (instantOf days hour minute second) = hour ∧
      Date.getUTCMinutes (instantOf days hour minute second) = minute ∧
      Date.getUTCSeconds (instantOf days hour minute second) = second ∧
      Date.getUTCMilliseconds (instantOf days hour minute second) = 0 := by
  have hday := fdiv_instantOf h days
  obtain ⟨hhour, hhour', hminute, hminute', hsecond, hsecond'⟩ := h
  have hms : Date.msOfDay (instantOf days hour minute second) =
      hour * 3600000 + minute * 60000 + second * 1000 := by
    unfold Date.msOfDay instantOf msPerDay
    rw [Int.fmod_eq_emod_of_nonneg _ (by decide)]
    omega
  unfold Date.civil Date.getUTCHours Date.getUTCMinutes Date.getUTCSeconds Date.getUTCMilliseconds
  rw [hday, hms]
  simp only [Int.fdiv_eq_ediv_of_nonneg _ (show (0 : ℤ) ≤ 3600000 by decide),
    Int.fdiv_eq_ediv_of_nonneg _ (show (0 : ℤ) ≤ 60000 by decide),
    Int.fdiv_eq_ediv_of_nonneg _ (show (0 : ℤ) ≤ 1000 by decide),
    Int.fmod_eq_emod_of_nonneg _ (show (0 : ℤ) ≤ 60 by decide),
    Int.fmod_eq_emod_of_nonneg _ (show (0 : ℤ) ≤ 1000 by decide)]
  refine ⟨trivial, ?_, ?_, ?_, ?_⟩ <;> omega

/-- What the getters read is a time of day, whatever the instant. -/
theorem getters_timeExists (date : Date) :
    TimeExists date.getUTCHours date.getUTCMinutes date.getUTCSeconds := by
  unfold Date.getUTCHours Date.getUTCMinutes Date.getUTCSeconds Date.msOfDay msPerDay
  simp only [Int.fdiv_eq_ediv_of_nonneg _ (show (0 : ℤ) ≤ 3600000 by decide),
    Int.fdiv_eq_ediv_of_nonneg _ (show (0 : ℤ) ≤ 60000 by decide),
    Int.fdiv_eq_ediv_of_nonneg _ (show (0 : ℤ) ≤ 1000 by decide),
    Int.fmod_eq_emod_of_nonneg _ (show (0 : ℤ) ≤ 60 by decide),
    Int.fmod_eq_emod_of_nonneg _ (show (0 : ℤ) ≤ 86400000 by decide)]
  constructor <;> omega

/-- An instant on a whole second is that of its day and its time. -/
theorem instantOf_getters {date : Date} (h : date.getUTCMilliseconds = 0) :
    instantOf (date.fdiv msPerDay) date.getUTCHours date.getUTCMinutes date.getUTCSeconds =
      date := by
  have hparts : ∀ days ms : ℤ, ms % 1000 = 0 →
      days * 86400000 + ms / 3600000 * 3600000 + ms / 60000 % 60 * 60000 + ms / 1000 % 60 * 1000 =
        days * 86400000 + ms := by
    intro days ms hms
    have hhours : ms / 60000 / 60 = ms / 3600000 := by omega
    have hminutes : ms / 1000 / 60 = ms / 60000 := by omega
    omega
  unfold Date.getUTCMilliseconds Date.msOfDay msPerDay at h
  unfold instantOf Date.getUTCHours Date.getUTCMinutes Date.getUTCSeconds Date.msOfDay msPerDay
  simp only [Int.fdiv_eq_ediv_of_nonneg _ (show (0 : ℤ) ≤ 3600000 by decide),
    Int.fdiv_eq_ediv_of_nonneg _ (show (0 : ℤ) ≤ 60000 by decide),
    Int.fdiv_eq_ediv_of_nonneg _ (show (0 : ℤ) ≤ 1000 by decide),
    Int.fdiv_eq_ediv_of_nonneg _ (show (0 : ℤ) ≤ 86400000 by decide),
    Int.fmod_eq_emod_of_nonneg _ (show (0 : ℤ) ≤ 60 by decide),
    Int.fmod_eq_emod_of_nonneg _ (show (0 : ℤ) ≤ 1000 by decide),
    Int.fmod_eq_emod_of_nonneg _ (show (0 : ℤ) ≤ 86400000 by decide)] at h ⊢
  rw [hparts _ _ h]
  exact Int.ediv_mul_add_emod date 86400000

/-- Later instants are on later days, or later on the same day. -/
theorem instantOf_lt_iff {days hour minute second days' hour' minute' second' : ℤ}
    (h : TimeExists hour minute second) (h' : TimeExists hour' minute' second') :
    instantOf days hour minute second < instantOf days' hour' minute' second' ↔
      days < days' ∨ days = days' ∧ (hour < hour' ∨ hour = hour' ∧
        (minute < minute' ∨ minute = minute' ∧ second < second')) := by
  obtain ⟨hhour, hhour', hminute, hminute', hsecond, hsecond'⟩ := h
  obtain ⟨hhour₁, hhour₁', hminute₁, hminute₁', hsecond₁, hsecond₁'⟩ := h'
  show days * 86400000 + hour * 3600000 + minute * 60000 + second * 1000 <
    days' * 86400000 + hour' * 3600000 + minute' * 60000 + second' * 1000 ↔ _
  omega

/-! ## Components -/

/-- The second, which may be left out. -/
def secondOf (components : UtcDateComponents) : ℤ := components.second.getD 0

/-- The components denote a date and a time that exist. -/
def Denote (components : UtcDateComponents) : Prop :=
  DateExists components.year components.month components.day ∧
    TimeExists components.hour components.minute (secondOf components)

/-- The instant the components are rendered from. -/
def instant (components : UtcDateComponents) : Date :=
  Date.UTC components.year (components.month - 1) components.day components.hour components.minute
    (secondOf components)

/-- `Date.UTC` of a month that is one; a year below 100 is moved. -/
theorem instant_eq {components : UtcDateComponents} (hpos : 1 ≤ components.month)
    (hle : components.month ≤ 12) : instant components =
    instantOf (daysFromCivil (if 0 ≤ components.year ∧ components.year ≤ 99 then
      1900 + components.year else components.year) components.month components.day)
      components.hour components.minute (secondOf components) := by
  have hcarry : (components.month - 1).fdiv 12 = 0 := by
    rw [Int.fdiv_eq_ediv_of_nonneg _ (by decide)]
    omega
  have hindex : (components.month - 1).fmod 12 + 1 = components.month := by
    rw [Int.fmod_eq_emod_of_nonneg _ (by decide)]
    omega
  unfold instant Date.UTC instantOf
  dsimp only
  rw [hcarry, hindex, add_zero, daysFromCivil_eq_number _ hpos hle, daysFromCivil_eq_number _ hpos hle]
  congr 4
  omega

/-- The getters give the components back. -/
def ReadBack (components : UtcDateComponents) : Prop :=
  (instant components).getUTCFullYear = components.year ∧
    (instant components).getUTCMonth = components.month - 1 ∧
    (instant components).getUTCDate = components.day ∧
    (instant components).getUTCHours = components.hour ∧
    (instant components).getUTCMinutes = components.minute ∧
    (instant components).getUTCSeconds = secondOf components

theorem componentsToUtcIso_eq (components : UtcDateComponents) (h : ReadBack components) :
    componentsToUtcIso components = some (padFour components.year ++ "-" ++
      padTwo components.month ++ "-" ++ padTwo components.day ++ "T" ++ padTwo components.hour ++
      ":" ++ padTwo components.minute ++ ":" ++ padTwo (secondOf components) ++ ".000Z") := by
  obtain ⟨hyear, hmonth, hday, hhour, hminute, hsecond⟩ := h
  unfold componentsToUtcIso
  dsimp only
  refine if_neg ?_
  simp only [not_or, not_not]
  exact ⟨hyear, hmonth, hday, hhour, hminute, hsecond⟩

theorem isSome_componentsToUtcIso (components : UtcDateComponents) :
    (componentsToUtcIso components).isSome ↔ ReadBack components := by
  constructor
  · intro h
    unfold componentsToUtcIso at h
    dsimp only at h
    split at h
    · cases h
    · rename_i hfields
      simp only [not_or, not_not] at hfields
      exact hfields
  · intro h
    rw [componentsToUtcIso_eq components h]
    rfl

/-- **The round trip**: the getters give back what exists, in a year that is not moved, and nothing
    else. -/
theorem readBack_iff (components : UtcDateComponents) (hyear : 0 ≤ components.year) :
    ReadBack components ↔ Denote components ∧ 100 ≤ components.year := by
  constructor
  · rintro ⟨hy, hmonth, hday, hhour, hminute, hsecond⟩
    -- what the getters give exists
    have hdate := civilFromDays_exists ((instant components).fdiv msPerDay)
    have htime := getters_timeExists (instant components)
    have hmonth : (civilFromDays ((instant components).fdiv msPerDay)).month = components.month :=
      sub_left_injective hmonth
    change (civilFromDays ((instant components).fdiv msPerDay)).year = components.year at hy
    change (civilFromDays ((instant components).fdiv msPerDay)).day = components.day at hday
    rw [hy, hmonth, hday] at hdate
    rw [hhour, hminute, hsecond] at htime
    obtain ⟨hexists, hnumber⟩ := hdate
    refine ⟨⟨hexists, htime⟩, ?_⟩
    by_contra hearly
    -- a year that is moved is read back as it was moved
    have hinstant := instant_eq hexists.month_pos hexists.month_le
    rw [if_pos ⟨hyear, by omega⟩] at hinstant
    have hdays : (instant components).fdiv msPerDay =
        daysFromCivil (1900 + components.year) components.month components.day := by
      rw [hinstant]
      exact fdiv_instantOf htime _
    have hfirst : DateExists (1900 + components.year) components.month 1 :=
      ⟨hexists.month_pos, hexists.month_le, by decide, daysInMonth_pos _ _⟩
    have hlater := (daysFromCivil_lt_iff hexists hfirst).2 (Or.inl (by omega))
    have hday := hexists.day_pos
    have hnumber' := hnumber.trans hdays
    rw [daysFromCivil_eq_number (1900 + components.year) hexists.month_pos hexists.month_le]
      at hnumber' hlater
    omega
  · rintro ⟨⟨hexists, htime⟩, hlate⟩
    have hinstant := instant_eq hexists.month_pos hexists.month_le
    rw [if_neg (by omega)] at hinstant
    obtain ⟨hcivil, hhour, hminute, hsecond, _⟩ := getters_instantOf htime
      (daysFromCivil components.year components.month components.day)
    rw [← hinstant] at hcivil hhour hminute hsecond
    rw [civilFromDays_daysFromCivil hexists] at hcivil
    unfold ReadBack Date.getUTCFullYear Date.getUTCMonth Date.getUTCDate
    rw [hcivil]
    exact ⟨rfl, rfl, rfl, hhour, hminute, hsecond⟩

/-- **Components are rendered** exactly when they denote what exists, in a year that is not moved. -/
theorem isSome_componentsToUtcIso_iff (components : UtcDateComponents) (hyear : 0 ≤ components.year) :
    (componentsToUtcIso components).isSome ↔ Denote components ∧ 100 ≤ components.year := by
  rw [isSome_componentsToUtcIso, readBack_iff components hyear]

theorem instant_of_denote {components : UtcDateComponents} (h : Denote components)
    (hlate : 100 ≤ components.year) : instant components =
    instantOf (daysFromCivil components.year components.month components.day) components.hour
      components.minute (secondOf components) := by
  rw [instant_eq h.1.month_pos h.1.month_le, if_neg (by omega)]

/-! ## Texts -/

/-- `YYYY-MM-DDTHH:MM:SS.000Z` -/
def isoShape : Decimal.Shape :=
  [(4, ['-']), (2, ['-']), (2, ['T']), (2, [':']), (2, [':']), (2, ".000Z".toList)]

/-- The fields of a text, from the year to the second. -/
def fieldsOf (components : UtcDateComponents) : List ℕ :=
  [components.year.toNat, components.month.toNat, components.day.toNat, components.hour.toNat,
    components.minute.toNat, (secondOf components).toNat]

/-- The components that a text of an instant shows. -/
def readIso (text : String) : Option UtcDateComponents :=
  (Decimal.read isoShape text.toList).bind fun
    | [year, month, day, hour, minute, second] =>
      some { day, hour, minute, month, second := some second, year }
    | _ => none

theorem toList_padStart (width n : ℕ) : (padStart width n).toList = Decimal.digits width n := by
  unfold padStart
  dsimp only
  rw [String.toList_append, String.toList_ofList]
  show List.replicate (width - n.repr.length) '0' ++ n.repr.toList = _
  rw [Nat.toList_repr, ← String.length_toList, Nat.toList_repr]
  rfl

theorem toList_padStart_toNat (width : ℕ) {n : ℤ} (h : 0 ≤ n) :
    (padStart width n).toList = Decimal.digits width n.toNat := by
  rw [← toList_padStart, Int.toNat_of_nonneg h]

theorem fits_fieldsOf {components : UtcDateComponents} (h : Denote components)
    (hyear : 0 ≤ components.year ∧ components.year ≤ 9999) :
    Decimal.Fits isoShape (fieldsOf components) := by
  obtain ⟨⟨hmonth, hmonth', hday, hday'⟩, ⟨hhour, hhour', hminute, hminute', hsecond, hsecond'⟩⟩ := h
  have hshort : daysInMonth components.year components.month ≤ 31 := by
    have := daysInMonth_cases components.year hmonth hmonth'
    omega
  refine .cons ⟨by decide, ?_⟩ (.cons ⟨by decide, ?_⟩ (.cons ⟨by decide, ?_⟩
    (.cons ⟨by decide, ?_⟩ (.cons ⟨by decide, ?_⟩ (.cons ⟨by decide, ?_⟩ .nil)))))
  all_goals norm_num
  all_goals omega

/-- **The text of what is rendered.** -/
theorem toList_componentsToUtcIso {components : UtcDateComponents} {text : String}
    (hyear : 0 ≤ components.year) (h : componentsToUtcIso components = some text) :
    text.toList = Decimal.render isoShape (fieldsOf components) := by
  have hread := (isSome_componentsToUtcIso components).1 (Option.isSome_iff_exists.2 ⟨text, h⟩)
  obtain ⟨⟨⟨hmonth, _, hday, _⟩, ⟨hhour, _, hminute, _, hsecond, _⟩⟩, _⟩ :=
    (readBack_iff components hyear).1 hread
  rw [componentsToUtcIso_eq components hread] at h
  obtain rfl := Option.some.inj h
  unfold padFour padTwo
  simp only [String.toList_append, toList_padStart_toNat _ hyear,
    toList_padStart_toNat _ (Int.le_trans Int.one_nonneg hmonth),
    toList_padStart_toNat _ (Int.le_trans Int.one_nonneg hday), toList_padStart_toNat _ hhour,
    toList_padStart_toNat _ hminute, toList_padStart_toNat _ hsecond, List.append_assoc]
  simp [Decimal.render, isoShape, fieldsOf]

/-- **The text is read back** as the components, with the second that was left out. -/
theorem readIso_componentsToUtcIso {components : UtcDateComponents} {text : String}
    (hyear : 0 ≤ components.year ∧ components.year ≤ 9999)
    (h : componentsToUtcIso components = some text) :
    readIso text = some { components with second := some (secondOf components) } := by
  have hsome := Option.isSome_iff_exists.2 ⟨text, h⟩
  obtain ⟨hdenote, _⟩ := (isSome_componentsToUtcIso_iff components hyear.1).1 hsome
  unfold readIso
  rw [toList_componentsToUtcIso hyear.1 h, Decimal.read_render (fits_fieldsOf hdenote hyear)]
  obtain ⟨⟨hmonth, _, hday, _⟩, ⟨hhour, _, hminute, _, hsecond, _⟩⟩ := hdenote
  show some (UtcDateComponents.mk _ _ _ _ _ _) = _
  rw [Int.toNat_of_nonneg hyear.1, Int.toNat_of_nonneg (by omega : 0 ≤ components.month),
    Int.toNat_of_nonneg (by omega : 0 ≤ components.day), Int.toNat_of_nonneg hhour,
    Int.toNat_of_nonneg hminute, Int.toNat_of_nonneg hsecond]

/-- **The texts are ordered as the instants are.** -/
theorem componentsToUtcIso_lt_iff {components components' : UtcDateComponents} {text text' : String}
    (hyear : 0 ≤ components.year ∧ components.year ≤ 9999)
    (hyear' : 0 ≤ components'.year ∧ components'.year ≤ 9999)
    (h : componentsToUtcIso components = some text)
    (h' : componentsToUtcIso components' = some text') :
    text < text' ↔ instant components < instant components' := by
  obtain ⟨hdenote, hlate⟩ := (isSome_componentsToUtcIso_iff components hyear.1).1
    (Option.isSome_iff_exists.2 ⟨text, h⟩)
  obtain ⟨hdenote', hlate'⟩ := (isSome_componentsToUtcIso_iff components' hyear'.1).1
    (Option.isSome_iff_exists.2 ⟨text', h'⟩)
  rw [String.lt_iff, toList_componentsToUtcIso hyear.1 h, toList_componentsToUtcIso hyear'.1 h',
    Decimal.render_lt_render_iff (fits_fieldsOf hdenote hyear) (fits_fieldsOf hdenote' hyear'),
    instant_of_denote hdenote hlate, instant_of_denote hdenote' hlate',
    instantOf_lt_iff hdenote.2 hdenote'.2, daysFromCivil_lt_iff hdenote.1 hdenote'.1]
  have hdays := daysFromCivil_inj hdenote.1 hdenote'.1
  rw [hdays]
  obtain ⟨⟨hmonth, _, hday, _⟩, ⟨hhour, _, hminute, _, hsecond, _⟩⟩ := hdenote
  obtain ⟨⟨hmonth', _, hday', _⟩, ⟨hhour', _, hminute', _, hsecond', _⟩⟩ := hdenote'
  have hnil : ¬ ([] : List ℕ) < [] := List.not_lt_nil _
  unfold fieldsOf
  simp only [List.cons_lt_cons_iff, hnil, and_false, or_false]
  omega

/-! ## Epochs -/

/-- The components of an instant, as the getters give them. -/
def civilComponents (date : Date) : UtcDateComponents :=
  { day := date.getUTCDate, hour := date.getUTCHours, minute := date.getUTCMinutes
    month := date.getUTCMonth + 1, second := some date.getUTCSeconds, year := date.getUTCFullYear }

/-- The instant of an epoch. -/
def epochInstant (seconds : ℕ) : Date := ((seconds * MILLISECONDS_PER_SECOND : ℕ) : ℤ)

/-- The epoch is in the window. -/
def InWindow (seconds : ℕ) : Prop :=
  EPOCH_LOWER_BOUND_SECONDS ≤ seconds ∧ seconds ≤ EPOCH_UPPER_BOUND_SECONDS

theorem digitsValue_toString (n : ℕ) : digitsValue (toString n) = some n := by
  have hdigits : toString n ≠ "" ∧ (toString n).toList.all Char.isDigit = true := by
    refine ⟨Nat.repr_ne_empty, ?_⟩
    rw [List.all_eq_true, Nat.toString_eq_repr, Nat.toList_repr]
    exact fun c hc => Nat.isDigit_of_mem_toDigits (by decide) (by decide) hc
  unfold digitsValue
  rw [if_pos hdigits, Nat.toString_eq_repr, Nat.toList_repr]
  exact congrArg some Nat.ofDigitChars_ten_toDigits

/-- **What an epoch is accepted for**: a canonical decimal in the window. -/
theorem epochToUtcIso_eq_some_iff (externalId text : String) :
    epochToUtcIso externalId = some text ↔
      ∃ seconds, InWindow seconds ∧ externalId = toString seconds ∧
        text = toISOString (epochInstant seconds) := by
  unfold epochToUtcIso
  constructor
  · intro h
    split at h
    · cases h
    · rename_i seconds _
      split at h
      · cases h
      · rename_i hcanonical
        split at h
        · cases h
        · rename_i hbounds
          rw [not_or, not_lt, not_lt] at hbounds
          exact ⟨seconds, hbounds, (not_not.1 hcanonical).symm, (Option.some.inj h).symm⟩
  · rintro ⟨seconds, ⟨hlower, hupper⟩, rfl, rfl⟩
    rw [digitsValue_toString]
    dsimp only
    rw [if_neg (not_not.2 rfl), if_neg (by omega)]
    rfl

theorem getUTCMilliseconds_epoch (seconds : ℕ) :
    (epochInstant seconds).getUTCMilliseconds = 0 := by
  unfold epochInstant Date.getUTCMilliseconds Date.msOfDay msPerDay MILLISECONDS_PER_SECOND
  rw [Int.fmod_eq_emod_of_nonneg _ (by decide), Int.fmod_eq_emod_of_nonneg _ (by decide)]
  omega

/-- The years of the window. -/
theorem year_epoch {seconds : ℕ} (h : InWindow seconds) :
    100 ≤ (epochInstant seconds).getUTCFullYear ∧
      (epochInstant seconds).getUTCFullYear ≤ 9999 := by
  obtain ⟨hlower, hupper⟩ := h
  unfold EPOCH_LOWER_BOUND_SECONDS EPOCH_UPPER_BOUND_SECONDS at *
  obtain ⟨hexists, hdays⟩ := civilFromDays_exists ((epochInstant seconds).fdiv msPerDay)
  have hbounds : 16436 ≤ (epochInstant seconds).fdiv msPerDay ∧
      (epochInstant seconds).fdiv msPerDay ≤ 23741 := by
    unfold epochInstant msPerDay MILLISECONDS_PER_SECOND
    rw [Int.fdiv_eq_ediv_of_nonneg _ (by decide)]
    omega
  have hfirst : DateExists 100 1 1 := by constructor <;> decide
  have hlast : DateExists 9999 12 31 := by constructor <;> decide
  have hafter := (daysFromCivil_lt_iff hfirst hexists).1 (by
    rw [hdays]
    exact Int.lt_of_lt_of_le (by decide) hbounds.1)
  have hbefore := (daysFromCivil_lt_iff hexists hlast).1 (by
    rw [hdays]
    exact Int.lt_of_le_of_lt hbounds.2 (by decide))
  show 100 ≤ (civilFromDays _).year ∧ (civilFromDays _).year ≤ 9999
  omega

theorem denote_civilComponents (date : Date) : Denote (civilComponents date) := by
  have hmonth : date.getUTCMonth + 1 = (civilFromDays (date.fdiv msPerDay)).month := by
    show (civilFromDays (date.fdiv msPerDay)).month - 1 + 1 = _
    omega
  refine ⟨?_, getters_timeExists date⟩
  show DateExists _ (date.getUTCMonth + 1) _
  rw [hmonth]
  exact (civilFromDays_exists _).1

/-- An instant on a whole second is the instant of its components. -/
theorem instant_civilComponents {date : Date} (hyear : 100 ≤ date.getUTCFullYear)
    (hms : date.getUTCMilliseconds = 0) : instant (civilComponents date) = date := by
  have hmonth : date.getUTCMonth + 1 = (civilFromDays (date.fdiv msPerDay)).month := by
    show (civilFromDays (date.fdiv msPerDay)).month - 1 + 1 = _
    omega
  rw [instant_of_denote (denote_civilComponents date) hyear]
  show instantOf (daysFromCivil _ (date.getUTCMonth + 1) _) _ _ _ = date
  rw [hmonth]
  exact (congrArg (fun days => instantOf days _ _ _) (civilFromDays_exists _).2).trans
    (instantOf_getters hms)

/-- **The text of an epoch** is the text of the components of its instant. -/
theorem epochToUtcIso_eq {seconds : ℕ} (h : InWindow seconds) :
    epochToUtcIso (toString seconds) =
      componentsToUtcIso (civilComponents (epochInstant seconds)) := by
  obtain ⟨hlate, hyear⟩ := year_epoch h
  have hread := (readBack_iff (civilComponents (epochInstant seconds)) (by
    show 0 ≤ (epochInstant seconds).getUTCFullYear
    omega)).2 ⟨denote_civilComponents _, hlate⟩
  have htext : epochToUtcIso (toString seconds) = some (toISOString (epochInstant seconds)) :=
    (epochToUtcIso_eq_some_iff _ _).2 ⟨seconds, h, rfl, rfl⟩
  rw [htext, componentsToUtcIso_eq _ hread]
  unfold toISOString
  dsimp only
  rw [getUTCMilliseconds_epoch, if_pos ⟨by omega, hyear⟩]
  simp only [String.append_assoc]
  rfl

/-- **The texts of epochs are ordered as the epochs are.** -/
theorem epochToUtcIso_lt_iff {seconds seconds' : ℕ} {text text' : String}
    (h : epochToUtcIso (toString seconds) = some text)
    (h' : epochToUtcIso (toString seconds') = some text') : text < text' ↔ seconds < seconds' := by
  have hwindow : ∀ {seconds : ℕ} {text : String}, epochToUtcIso (toString seconds) = some text →
      InWindow seconds := by
    intro seconds text h
    obtain ⟨other, hother, hsame, _⟩ := (epochToUtcIso_eq_some_iff _ _).1 h
    have hvalue := congrArg digitsValue hsame
    rw [digitsValue_toString, digitsValue_toString] at hvalue
    exact Option.some.inj hvalue ▸ hother
  obtain ⟨hlate, hyear⟩ := year_epoch (hwindow h)
  obtain ⟨hlate', hyear'⟩ := year_epoch (hwindow h')
  rw [epochToUtcIso_eq (hwindow h)] at h
  rw [epochToUtcIso_eq (hwindow h')] at h'
  rw [componentsToUtcIso_lt_iff ⟨Int.le_trans (by decide) hlate, hyear⟩
    ⟨Int.le_trans (by decide) hlate', hyear'⟩ h h',
    instant_civilComponents hlate (getUTCMilliseconds_epoch _),
    instant_civilComponents hlate' (getUTCMilliseconds_epoch _)]
  show ((seconds * 1000 : ℕ) : ℤ) < ((seconds' * 1000 : ℕ) : ℤ) ↔ _
  omega

/-- **The rendering is exact.**  Components are rendered exactly when they denote an existing date
    and time from the year 100 on; the text shows them, and the texts are ordered as the instants
    are.  Epochs are the canonical decimals in the window; their texts are ordered as they are, and
    are those of the components of their instants. -/
theorem rendering_exact :
    (∀ components : UtcDateComponents, 0 ≤ components.year → components.year ≤ 9999 →
      ((componentsToUtcIso components).isSome ↔ Denote components ∧ 100 ≤ components.year)) ∧
    (∀ components text, 0 ≤ components.year → components.year ≤ 9999 →
      componentsToUtcIso components = some text →
      readIso text = some { components with second := some (secondOf components) }) ∧
    (∀ components components' text text', 0 ≤ components.year → components.year ≤ 9999 →
      0 ≤ components'.year → components'.year ≤ 9999 →
      componentsToUtcIso components = some text → componentsToUtcIso components' = some text' →
      (text < text' ↔ instant components < instant components')) ∧
    (∀ externalId, (epochToUtcIso externalId).isSome ↔
      ∃ seconds : ℕ, InWindow seconds ∧ externalId = toString seconds) ∧
    (∀ (seconds seconds' : ℕ) (text text' : String), epochToUtcIso (toString seconds) = some text →
      epochToUtcIso (toString seconds') = some text' → (text < text' ↔ seconds < seconds')) ∧
    ∀ seconds : ℕ, InWindow seconds → epochToUtcIso (toString seconds) =
      componentsToUtcIso (civilComponents (epochInstant seconds)) := by
  refine ⟨fun components hfrom _ => isSome_componentsToUtcIso_iff components hfrom,
    fun _ _ hfrom hto h => readIso_componentsToUtcIso ⟨hfrom, hto⟩ h,
    fun _ _ _ _ hfrom hto hfrom' hto' h h' =>
      componentsToUtcIso_lt_iff ⟨hfrom, hto⟩ ⟨hfrom', hto'⟩ h h', fun externalId => ?_,
    fun _ _ _ _ h h' => epochToUtcIso_lt_iff h h', fun _ h => epochToUtcIso_eq h⟩
  rw [Option.isSome_iff_exists]
  constructor
  · rintro ⟨text, h⟩
    obtain ⟨seconds, hwindow, hcanonical, _⟩ := (epochToUtcIso_eq_some_iff _ _).1 h
    exact ⟨seconds, hwindow, hcanonical⟩
  · rintro ⟨seconds, hwindow, hcanonical⟩
    exact ⟨_, (epochToUtcIso_eq_some_iff _ _).2 ⟨seconds, hwindow, hcanonical, rfl⟩⟩

/-- The last minute of a leap day, and the one after it. -/
def leapDay : UtcDateComponents := { day := 29, hour := 23, minute := 59, month := 2, year := 2000 }

def afterLeapDay : UtcDateComponents := { day := 1, hour := 0, minute := 0, month := 3, year := 2000 }

theorem rendering_exact_leapDay :
    ((componentsToUtcIso leapDay).isSome ↔ Denote leapDay ∧ 100 ≤ leapDay.year) ∧
    readIso "2000-02-29T23:59:00.000Z" = some { leapDay with second := some (secondOf leapDay) } ∧
    ("2000-02-29T23:59:00.000Z" < "2000-03-01T00:00:00.000Z" ↔
      instant leapDay < instant afterLeapDay) ∧
    epochToUtcIso (toString 1781460116) =
      componentsToUtcIso (civilComponents (epochInstant 1781460116)) :=
  ⟨rendering_exact.1 _ (by decide) (by decide),
    rendering_exact.2.1 leapDay _ (by decide) (by decide) (by decide),
    rendering_exact.2.2.1 leapDay afterLeapDay _ _ (by decide) (by decide) (by decide) (by decide)
      (by decide) (by decide),
    rendering_exact.2.2.2.2.2 1781460116 ⟨by decide, by decide⟩⟩

end ReplaysFetcher.Calendar
