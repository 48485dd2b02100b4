/-!
# The calendar

The proleptic Gregorian calendar: the leap rule of today holds for every year,
before its introduction and before the year one as well.  Years are whole
numbers, and the year zero comes before the year one.

A `Date` names a day that exists.  Days are numbered from the first of January
1970, which is day zero.  `Date.dayNumber` counts the days before the year, the
days before the month and the days before the day.  `Date.ofDayNumber` goes back:
it guesses the year from the mean length of a year, moves the guess by one if the
day lies outside, and counts the months that have passed.

`dayNumber_ofDayNumber` says that the date of a day has that number.
-/

namespace MessageExchange.Time

/-! ## Years -/

/-- Every fourth year is a leap year.  Of the years that end a century, every fourth is. -/
def isLeapYear (year : Int) : Bool :=
  decide (year % 4 = 0) && (decide (year % 100 ≠ 0) || decide (year % 400 = 0))

/-- The days of a year. -/
def yearLength (leap : Bool) : Nat := if leap then 366 else 365

/-- The leap years among the years from one to the one before `year`, counted down below the year
one. -/
def leapsBefore (year : Int) : Int := (year - 1) / 4 - (year - 1) / 100 + (year - 1) / 400

/-- The number of the first day of a year. -/
def daysBeforeYear (year : Int) : Int :=
  365 * (year - 1970) + (leapsBefore year - leapsBefore 1970)

theorem daysBeforeYear_succ (year : Int) :
    daysBeforeYear (year + 1) = daysBeforeYear year + yearLength (isLeapYear year) := by
  by_cases h : isLeapYear year = true
  · simp only [isLeapYear, Bool.and_eq_true, Bool.or_eq_true, decide_eq_true_eq] at h
    have hl : isLeapYear year = true := by simpa [isLeapYear] using h
    simp only [daysBeforeYear, leapsBefore, yearLength, hl, if_true]
    omega
  · have hl : isLeapYear year = false := by simpa using h
    simp only [isLeapYear, Bool.and_eq_true, Bool.or_eq_true, decide_eq_true_eq] at h
    simp only [daysBeforeYear, leapsBefore, yearLength, hl]
    simp only [Bool.false_eq_true, if_false]
    omega

/-! ## Months -/

/-- The days of a month from one to twelve. -/
def monthLength (leap : Bool) : Nat → Nat
  | 2 => if leap then 29 else 28
  | 4 => 30
  | 6 => 30
  | 9 => 30
  | 11 => 30
  | _ => 31

/-- The days of the first `months` months of a year. -/
def daysThrough (leap : Bool) : Nat → Nat
  | 0 => 0
  | months + 1 => daysThrough leap months + monthLength leap (months + 1)

/-- The month that holds a day of the year, where the first of January is day zero: one more than
the number of months that have passed. -/
def monthOfDay (leap : Bool) (day : Nat) : Nat :=
  1 + ((List.range 11).countP fun month => daysThrough leap (month + 1) ≤ day)

/-- A day of the year lies in its month. -/
theorem monthOfDay_bounds : ∀ (leap : Bool) (day : Fin 366), day.val < yearLength leap →
    1 ≤ monthOfDay leap day ∧ monthOfDay leap day ≤ 12 ∧
      daysThrough leap (monthOfDay leap day - 1) ≤ day ∧
      day - daysThrough leap (monthOfDay leap day - 1) < monthLength leap (monthOfDay leap day) := by
  decide +kernel

/-! ## Dates -/

/-- A day that exists. -/
structure Date where
  /-- The year, zero and negative ones included. -/
  year : Int
  /-- The month, from one. -/
  month : Nat
  /-- The day of the month, from one. -/
  day : Nat
  /-- There are twelve months. -/
  month_mem : 1 ≤ month ∧ month ≤ 12
  /-- The month of that year has the day. -/
  day_mem : 1 ≤ day ∧ day ≤ monthLength (isLeapYear year) month
deriving DecidableEq

namespace Date

/-- The date with a year, a month and a day, if there is one. -/
def ofParts? (year : Int) (month day : Nat) : Option Date :=
  if h : (1 ≤ month ∧ month ≤ 12) ∧ 1 ≤ day ∧ day ≤ monthLength (isLeapYear year) month then
    some ⟨year, month, day, h.1, h.2⟩
  else none

/-- The number of a day, counted from the first of January 1970. -/
def dayNumber (date : Date) : Int :=
  daysBeforeYear date.year + daysThrough (isLeapYear date.year) (date.month - 1) + (date.day - 1 : Nat)

/-- The year of a day number. -/
def yearOfDayNumber (n : Int) : Int :=
  let guess := 400 * (n + 719162) / 146097 + 1
  if n < daysBeforeYear guess then guess - 1
  else if daysBeforeYear (guess + 1) ≤ n then guess + 1
  else guess

/-- A day lies in its year. -/
theorem yearOfDayNumber_bounds (n : Int) :
    daysBeforeYear (yearOfDayNumber n) ≤ n ∧ n < daysBeforeYear (yearOfDayNumber n + 1) := by
  simp only [yearOfDayNumber]
  split
  · refine ⟨?_, by simpa using ‹_›⟩
    simp only [daysBeforeYear, leapsBefore] at *
    omega
  · split
    · refine ⟨‹_›, ?_⟩
      simp only [daysBeforeYear, leapsBefore] at *
      omega
    · omega

/-- The day of the year of a day number, from zero. -/
def dayOfYear (n : Int) : Nat := (n - daysBeforeYear (yearOfDayNumber n)).toNat

theorem dayOfYear_lt (n : Int) : dayOfYear n < yearLength (isLeapYear (yearOfDayNumber n)) := by
  have h := yearOfDayNumber_bounds n
  rw [daysBeforeYear_succ] at h
  simp only [dayOfYear]
  omega

theorem yearLength_le (leap : Bool) : yearLength leap ≤ 366 := by cases leap <;> decide

/-- The date of a day number. -/
def ofDayNumber (n : Int) : Date :=
  let year := yearOfDayNumber n
  let leap := isLeapYear year
  let month := monthOfDay leap (dayOfYear n)
  { year := year
    month := month
    day := dayOfYear n - daysThrough leap (month - 1) + 1
    month_mem := by
      have hlt := dayOfYear_lt n
      have hle := yearLength_le (isLeapYear (yearOfDayNumber n))
      have h := monthOfDay_bounds leap ⟨dayOfYear n, by omega⟩ hlt
      exact ⟨h.1, h.2.1⟩
    day_mem := by
      have hlt := dayOfYear_lt n
      have hle := yearLength_le (isLeapYear (yearOfDayNumber n))
      have h := monthOfDay_bounds leap ⟨dayOfYear n, by omega⟩ hlt
      exact ⟨by omega, h.2.2.2⟩ }

@[simp] theorem dayNumber_ofDayNumber (n : Int) : (ofDayNumber n).dayNumber = n := by
  have hlt := dayOfYear_lt n
  have hle := yearLength_le (isLeapYear (yearOfDayNumber n))
  have h := (monthOfDay_bounds (isLeapYear (yearOfDayNumber n)) ⟨dayOfYear n, by omega⟩ hlt).2.2.1
  have hy := (yearOfDayNumber_bounds n).1
  simp only [dayNumber, ofDayNumber]
  simp only [dayOfYear] at *
  omega

end Date

end MessageExchange.Time
