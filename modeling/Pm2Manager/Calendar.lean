import Mathlib.Data.List.Basic
import Mathlib.Data.Int.Notation
import Mathlib.Order.Lex
import Mathlib.Tactic.Ring

/-!
# Calendar texts

The proleptic Gregorian calendar of a day number (days since 1970-01-01) and
the texts of instants.  Fields of fixed width, from the year down to the
second, make the order of the texts the order of the instants.
-/

namespace Calendar

/-! ## Days, months and years -/

/-- The first day of a year. -/
def dayFromYear (year : ℤ) : ℤ :=
  365 * (year - 1970) + (year - 1969) / 4 - (year - 1901) / 100 +
    (year - 1601) / 400

/-- 146097 days are 400 years; the estimate is off by one year at most. -/
def yearFromDay (day : ℤ) : ℤ :=
  let estimate := 1970 + 400 * day / 146097
  if day < dayFromYear estimate then estimate - 1
  else if dayFromYear (estimate + 1) ≤ day then estimate + 1
  else estimate

def leapDays (year : ℤ) : ℤ :=
  dayFromYear (year + 1) - dayFromYear year - 365

/-- The days of a year before a month, the months being numbered from 1: as if
February had 30 days, and corrected for the later months. -/
def monthStart (leap month : ℤ) : ℤ :=
  (367 * month - 362) / 12 - if month ≤ 2 then 0 else 2 - leap

/-- The month of a day of the year. -/
def monthOf (leap dayOfYear : ℤ) : ℤ :=
  let shifted := if dayOfYear < 59 + leap then dayOfYear else dayOfYear + 2 - leap
  (12 * shifted + 373) / 367

structure Date where
  year : ℤ
  month : ℤ
  date : ℤ
deriving DecidableEq, Repr

def dateOf (day : ℤ) : Date :=
  let year := yearFromDay day
  let leap := leapDays year
  let dayOfYear := day - dayFromYear year
  let month := monthOf leap dayOfYear
  { year, month, date := dayOfYear - monthStart leap month + 1 }

theorem yearFromDay_spec (day : ℤ) :
    dayFromYear (yearFromDay day) ≤ day ∧ day < dayFromYear (yearFromDay day + 1) := by
  have hlow : 146097 * (400 * day / 146097) ≤ 400 * day := by omega
  have hhigh : 400 * day < 146097 * (400 * day / 146097) + 146097 := by omega
  unfold yearFromDay
  dsimp only
  generalize 400 * day / 146097 = years at hlow hhigh ⊢
  split
  next hbefore =>
    rw [sub_add_cancel]
    refine ⟨?_, hbefore⟩
    unfold dayFromYear
    omega
  next hnotBefore =>
    split
    next hafter =>
      refine ⟨hafter, ?_⟩
      unfold dayFromYear
      omega
    next hnotAfter =>
      exact ⟨not_lt.mp hnotBefore, not_le.mp hnotAfter⟩

theorem dayFromYear_lt {year later : ℤ} (hlt : year < later) :
    dayFromYear year < dayFromYear later := by
  unfold dayFromYear
  omega

theorem dayFromYear_mono {year later : ℤ} (hle : year ≤ later) :
    dayFromYear year ≤ dayFromYear later := by
  rcases eq_or_lt_of_le hle with rfl | hlt
  · exact le_rfl
  · exact (dayFromYear_lt hlt).le

theorem leapDays_mem (year : ℤ) : leapDays year = 0 ∨ leapDays year = 1 := by
  unfold leapDays dayFromYear
  omega

theorem monthOf_spec {leap dayOfYear : ℤ} (hleap : leap = 0 ∨ leap = 1)
    (hlow : 0 ≤ dayOfYear) (hhigh : dayOfYear < 365 + leap) :
    1 ≤ monthOf leap dayOfYear ∧ monthOf leap dayOfYear ≤ 12 ∧
      monthStart leap (monthOf leap dayOfYear) ≤ dayOfYear ∧
      dayOfYear ≤ monthStart leap (monthOf leap dayOfYear) + 30 := by
  unfold monthStart monthOf
  dsimp only
  split_ifs <;> omega

/-- The month does not go back in the course of a year. -/
theorem monthOf_mono {leap day later : ℤ} (hleap : leap = 0 ∨ leap = 1)
    (hle : day ≤ later) : monthOf leap day ≤ monthOf leap later := by
  unfold monthOf
  dsimp only
  split_ifs <;> omega

example : [1, 2, 3, 4, 5, 6, 7, 8, 9, 10, 11, 12].map (monthStart 0) =
    [0, 31, 59, 90, 120, 151, 181, 212, 243, 273, 304, 334] := by decide

example : dateOf 19782 = { year := 2024, month := 2, date := 29 } := by decide

theorem dateOf_bounds (day : ℤ) :
    (1 ≤ (dateOf day).month ∧ (dateOf day).month ≤ 12) ∧
      1 ≤ (dateOf day).date ∧ (dateOf day).date ≤ 31 := by
  have hyear := yearFromDay_spec day
  have hlow : 0 ≤ day - dayFromYear (yearFromDay day) := by omega
  have hhigh : day - dayFromYear (yearFromDay day) <
      365 + leapDays (yearFromDay day) := by
    unfold leapDays
    omega
  have hmonth := monthOf_spec (leapDays_mem (yearFromDay day)) hlow hhigh
  simp only [dateOf]
  omega

theorem yearFromDay_mono {day later : ℤ} (hle : day ≤ later) :
    yearFromDay day ≤ yearFromDay later := by
  by_contra hlt
  have hnext : yearFromDay later + 1 ≤ yearFromDay day := by omega
  have hstart := dayFromYear_mono hnext
  have hday := (yearFromDay_spec day).1
  have hlater := (yearFromDay_spec later).2
  omega

/-- A later day has a later date: year, month and day of the month in this
order. -/
theorem dateOf_lt {day later : ℤ} (hlt : day < later) :
    (dateOf day).year < (dateOf later).year ∨
      (dateOf day).year = (dateOf later).year ∧
        ((dateOf day).month < (dateOf later).month ∨
          (dateOf day).month = (dateOf later).month ∧
            (dateOf day).date < (dateOf later).date) := by
  rcases eq_or_lt_of_le (yearFromDay_mono hlt.le) with hyear | hyear
  · refine .inr ⟨hyear, ?_⟩
    have hmono := monthOf_mono (leapDays_mem (yearFromDay day))
      (sub_le_sub_right hlt.le (dayFromYear (yearFromDay day)))
    simp only [dateOf, ← hyear]
    rcases eq_or_lt_of_le hmono with hmonth | hmonth
    · refine .inr ⟨hmonth, ?_⟩
      rw [← hmonth]
      omega
    · exact .inl hmonth
  · exact .inl hyear

/-! ## The day of a date -/

/-- `MakeDay` of ECMAScript, for a month between 1 and 12. -/
def dayOf (date : Date) : ℤ :=
  dayFromYear date.year + monthStart (leapDays date.year) date.month + date.date - 1

/-- The date is one of the calendar. -/
structure Date.Valid (date : Date) : Prop where
  month_low : 1 ≤ date.month
  month_high : date.month ≤ 12
  date_low : 1 ≤ date.date
  date_high : date.date ≤ monthStart (leapDays date.year) (date.month + 1) -
    monthStart (leapDays date.year) date.month

theorem dayOf_dateOf (day : ℤ) : dayOf (dateOf day) = day := by
  simp only [dayOf, dateOf]
  omega

theorem yearFromDay_eq {day year : ℤ} (hlow : dayFromYear year ≤ day)
    (hhigh : day < dayFromYear (year + 1)) : yearFromDay day = year := by
  obtain ⟨hstart, hnext⟩ := yearFromDay_spec day
  rcases lt_trichotomy (yearFromDay day) year with hlt | heq | hgt
  · have hmono := dayFromYear_mono (show yearFromDay day + 1 ≤ year by omega)
    omega
  · exact heq
  · have hmono := dayFromYear_mono (show year + 1 ≤ yearFromDay day by omega)
    omega

theorem monthOf_monthStart {leap month date : ℤ} (hleap : leap = 0 ∨ leap = 1)
    (hlow : 1 ≤ month) (hhigh : month ≤ 12) (hdate : 1 ≤ date)
    (hlast : date ≤ monthStart leap (month + 1) - monthStart leap month) :
    monthOf leap (monthStart leap month + date - 1) = month := by
  unfold monthStart at *
  unfold monthOf
  dsimp only
  split_ifs at * <;> omega

theorem monthStart_bounds {leap month : ℤ} (hleap : leap = 0 ∨ leap = 1)
    (hlow : 1 ≤ month) (hhigh : month ≤ 12) :
    0 ≤ monthStart leap month ∧ monthStart leap (month + 1) ≤ 365 + leap := by
  unfold monthStart
  split_ifs <;> omega

theorem dateOf_dayOf {date : Date} (hvalid : date.Valid) : dateOf (dayOf date) = date := by
  obtain ⟨hlow, hhigh, hdate, hlast⟩ := hvalid
  have hleap := leapDays_mem date.year
  obtain ⟨hstart, hend⟩ := monthStart_bounds hleap hlow hhigh
  have hlength : dayFromYear (date.year + 1) =
      dayFromYear date.year + 365 + leapDays date.year := by
    unfold leapDays
    omega
  have hyear : yearFromDay (dayOf date) = date.year := by
    apply yearFromDay_eq <;> unfold dayOf <;> omega
  have hmonth : monthOf (leapDays date.year) (dayOf date - dayFromYear date.year) =
      date.month := by
    have hday : dayOf date - dayFromYear date.year =
        monthStart (leapDays date.year) date.month + date.date - 1 := by
      unfold dayOf
      omega
    rw [hday]
    exact monthOf_monthStart hleap hlow hhigh hdate hlast
  have hdateEq : dayOf date - dayFromYear date.year -
      monthStart (leapDays date.year) date.month + 1 = date.date := by
    unfold dayOf
    omega
  simp only [dateOf, hyear, hmonth, hdateEq]

theorem dateOf_valid (day : ℤ) : (dateOf day).Valid := by
  have hbounds := dateOf_bounds day
  have hyear := yearFromDay_spec day
  have hleap := leapDays_mem (yearFromDay day)
  refine ⟨hbounds.1.1, hbounds.1.2, hbounds.2.1, ?_⟩
  simp only [dateOf] at *
  have hhigh : day - dayFromYear (yearFromDay day) <
      365 + leapDays (yearFromDay day) := by
    unfold leapDays
    omega
  generalize day - dayFromYear (yearFromDay day) = dayOfYear at *
  have hlast : dayOfYear < monthStart (leapDays (yearFromDay day))
      (monthOf (leapDays (yearFromDay day)) dayOfYear + 1) := by
    unfold monthStart monthOf
    dsimp only
    split_ifs <;> omega
  omega

/-! ## Texts -/

def digit (d : ℕ) : Char :=
  Char.ofNat ('0'.toNat + d)

/-- The last `width` decimal digits of a number below `10 ^ width`. -/
def pad : ℕ → ℕ → List Char
  | 0, _ => []
  | width + 1, n => digit (n / 10 ^ width) :: pad width (n % 10 ^ width)

/-- `YYYY-MM-DD`; a year outside `0..9999` has a sign and six digits. -/
def dateText (date : Date) : List Char :=
  let year :=
    if date.year < 0 then '-' :: pad 6 date.year.natAbs
    else if 9999 < date.year then '+' :: pad 6 date.year.natAbs
    else pad 4 date.year.natAbs
  year ++ '-' :: pad 2 date.month.natAbs ++ '-' :: pad 2 date.date.natAbs

/-- `HH:MM:SS` of a second of the day. -/
def timeText (second : ℕ) : List Char :=
  pad 2 (second / 3600) ++ ':' :: pad 2 (second / 60 % 60) ++
    ':' :: pad 2 (second % 60)

/-- `datetime` of SQLite: `YYYY-MM-DD HH:MM:SS` of a second, in UTC. -/
def datetimeText (second : ℤ) : List Char :=
  dateText (dateOf (second / 86400)) ++ ' ' :: timeText (second % 86400).natAbs

/-- `toISOString` of a time value in milliseconds; a `Date` exists within
100,000,000 days of the epoch. -/
def toISOString (timeValue : ℤ) : Option (List Char) :=
  if timeValue.natAbs ≤ 8640000000000000 then
    some (dateText (dateOf (timeValue / 86400000)) ++
      'T' :: timeText (timeValue / 1000 % 86400).natAbs ++
      '.' :: pad 3 (timeValue % 1000).natAbs ++ ['Z'])
  else
    none

example : (toISOString 1709210096789).map String.ofList =
    some "2024-02-29T12:34:56.789Z" := by decide +kernel

example : (toISOString (-62198755200000)).map String.ofList =
    some "-000001-01-01T00:00:00.000Z" := by decide +kernel

/-! ## The order of the texts -/

@[simp] theorem length_pad (width n : ℕ) : (pad width n).length = width := by
  induction width generalizing n with
  | zero => rfl
  | succ width ih => simp [pad, ih]

theorem digit_lt {d e : ℕ} (hlt : d < e) (he : e < 10) : digit d < digit e := by
  have hall : ∀ e < 10, ∀ d < e, digit d < digit e := by decide
  exact hall e he d hlt

theorem digit_isDigit {d : ℕ} (hd : d < 10) : (digit d).isDigit = true := by
  have hall : ∀ d < 10, (digit d).isDigit = true := by decide
  exact hall d hd

theorem isDigit_of_mem_pad (width n : ℕ) (hn : n < 10 ^ width) :
    ∀ c ∈ pad width n, c.isDigit = true := by
  induction width generalizing n with
  | zero => simp [pad]
  | succ width ih =>
      intro c hc
      rcases List.mem_cons.mp hc with rfl | hrest
      · exact digit_isDigit (Nat.div_lt_of_lt_mul (by rwa [← pow_succ]))
      · exact ih _ (Nat.mod_lt n (Nat.pow_pos (by decide))) c hrest

/-- Texts of one width compare as the numbers do. -/
theorem pad_lt {width n m : ℕ} (hlt : n < m) (hm : m < 10 ^ width) :
    pad width n < pad width m := by
  induction width generalizing n m with
  | zero => omega
  | succ width ih =>
      have hpos : 0 < 10 ^ width := Nat.pow_pos (by decide)
      have hhead : m / 10 ^ width < 10 :=
        Nat.div_lt_of_lt_mul (by rwa [← pow_succ])
      rcases eq_or_lt_of_le (Nat.div_le_div_right (c := 10 ^ width) hlt.le) with
        heq | hless
      · have hrest : n % 10 ^ width < m % 10 ^ width := by
          have hn := Nat.div_add_mod n (10 ^ width)
          have hm := Nat.div_add_mod m (10 ^ width)
          rw [heq] at hn
          omega
        simp only [pad, heq, List.cons_lt_cons_self]
        exact ih hrest (Nat.mod_lt m hpos)
      · exact List.cons_lt_cons_iff.mpr (.inl (digit_lt hless hhead))

/-- The first difference decides, wherever the texts end. -/
theorem append_lt_append {left right rest rest' : List Char}
    (hlength : left.length = right.length) (hlt : left < right) :
    left ++ rest < right ++ rest' := by
  induction left generalizing right with
  | nil =>
      have hright : right = [] := List.length_eq_zero_iff.mp hlength.symm
      exact absurd hlt (by simp [hright])
  | cons c left ih =>
      cases right with
      | nil => simp at hlength
      | cons d right =>
          rw [List.cons_append, List.cons_append, List.cons_lt_cons_iff]
          rcases List.cons_lt_cons_iff.mp hlt with hhead | ⟨heq, htail⟩
          · exact .inl hhead
          · exact .inr ⟨heq, ih (by simpa using hlength) htail⟩

/-- The same text first, then what comes after it decides. -/
theorem append_lt_append_of_eq {left right rest rest' : List Char}
    (heq : left = right) (hlt : rest < rest') : left ++ rest < right ++ rest' :=
  heq ▸ List.append_left_lt hlt

def Date.FourDigits (date : Date) : Prop :=
  0 ≤ date.year ∧ date.year ≤ 9999

theorem dateText_eq {date : Date} (hdate : date.FourDigits) :
    dateText date = pad 4 date.year.natAbs ++
      ('-' :: pad 2 date.month.natAbs ++ '-' :: pad 2 date.date.natAbs) := by
  obtain ⟨hlow, hhigh⟩ := hdate
  simp [dateText, not_lt.mpr hlow, not_lt.mpr hhigh]

theorem length_dateText {date : Date} (hdate : date.FourDigits) :
    (dateText date).length = 10 := by
  simp [dateText_eq hdate]

theorem dateText_lt {day later : ℤ} (hday : (dateOf day).FourDigits)
    (hlater : (dateOf later).FourDigits) (hlt : day < later) :
    dateText (dateOf day) < dateText (dateOf later) := by
  have hbounds := dateOf_bounds day
  have hboundsLater := dateOf_bounds later
  rw [dateText_eq hday, dateText_eq hlater]
  obtain ⟨hlow, _⟩ := hday
  obtain ⟨_, hhigh⟩ := hlater
  rcases dateOf_lt hlt with hyear | ⟨hyear, hmonth | ⟨hmonth, hdate⟩⟩
  · exact append_lt_append (by simp) (pad_lt (by omega) (by omega))
  · rw [hyear]
    refine append_lt_append_of_eq rfl ?_
    rw [List.cons_append, List.cons_append, List.cons_lt_cons_self]
    exact append_lt_append (by simp) (pad_lt (by omega) (by omega))
  · rw [hyear, hmonth]
    refine append_lt_append_of_eq rfl (append_lt_append_of_eq rfl ?_)
    rw [List.cons_lt_cons_self]
    exact pad_lt (by omega) (by omega)

@[simp] theorem length_timeText (second : ℕ) : (timeText second).length = 8 := by
  simp [timeText]

theorem timeText_lt {second later : ℕ} (hlt : second < later) (hlater : later < 86400) :
    timeText second < timeText later := by
  unfold timeText
  rw [List.append_assoc, List.append_assoc]
  rcases eq_or_lt_of_le (Nat.div_le_div_right (c := 3600) hlt.le) with hhour | hhour
  · rw [hhour]
    refine append_lt_append_of_eq rfl ?_
    rw [List.cons_append, List.cons_append, List.cons_lt_cons_self]
    rcases lt_or_ge (second / 60 % 60) (later / 60 % 60) with hminute | hminute
    · exact append_lt_append (by simp) (pad_lt hminute (by omega))
    · have heq : second / 60 % 60 = later / 60 % 60 := by omega
      rw [heq]
      refine append_lt_append_of_eq rfl ?_
      rw [List.cons_lt_cons_self]
      exact pad_lt (by omega) (by omega)
  · exact append_lt_append (by simp) (pad_lt hhour (by omega))

/-- Within the years of four digits the texts are in the order of time. -/
theorem datetimeText_lt {second later : ℤ}
    (hsecond : (dateOf (second / 86400)).FourDigits)
    (hlater : (dateOf (later / 86400)).FourDigits) (hlt : second < later) :
    datetimeText second < datetimeText later := by
  unfold datetimeText
  rcases eq_or_lt_of_le (Int.ediv_le_ediv (show (0 : ℤ) < 86400 by decide) hlt.le) with
    hday | hday
  · rw [hday]
    refine append_lt_append_of_eq rfl ?_
    rw [List.cons_lt_cons_self]
    exact timeText_lt (by omega) (by omega)
  · refine append_lt_append ?_ (dateText_lt hsecond hlater hday)
    rw [length_dateText hsecond, length_dateText hlater]

theorem datetimeText_lt_iff {second later : ℤ}
    (hsecond : (dateOf (second / 86400)).FourDigits)
    (hlater : (dateOf (later / 86400)).FourDigits) :
    datetimeText second < datetimeText later ↔ second < later := by
  constructor
  · intro htext
    by_contra hnot
    rcases eq_or_lt_of_le (not_lt.mp hnot) with heq | hlt
    · rw [heq] at htext
      exact List.lt_irrefl _ htext
    · exact List.lt_asymm htext (datetimeText_lt hlater hsecond hlt)
  · exact datetimeText_lt hsecond hlater

theorem fourDigits_of_day {day : ℤ} (hlow : dayFromYear 0 ≤ day)
    (hhigh : day < dayFromYear 10000) : (dateOf day).FourDigits := by
  have hspec := yearFromDay_spec day
  constructor
  · by_contra hneg
    have hyear : yearFromDay day + 1 ≤ 0 := by
      simp only [dateOf] at hneg
      omega
    have hstart := dayFromYear_mono hyear
    omega
  · by_contra hlarge
    have hyear : 10000 ≤ yearFromDay day := by
      simp only [dateOf] at hlarge
      omega
    have hstart := dayFromYear_mono hyear
    omega

theorem year_neg_of_day {day : ℤ} (hday : day < dayFromYear 0) :
    (dateOf day).year < 0 := by
  by_contra hnot
  have hspec := yearFromDay_spec day
  have hstart : dayFromYear 0 ≤ dayFromYear (yearFromDay day) :=
    dayFromYear_mono (not_lt.mp hnot)
  omega

end Calendar
