import MessageExchange.Time.Calendar
import Mathlib.Algebra.Order.Group.Int
import Mathlib.Algebra.Order.Ring.Nat

/-!
# Walking through the calendar

The calendar can be walked from day to day: `Date.next` is the day after a date.
`Date.Away n date` says that such a walk finds a date `n` days after the first of
January 1970, or before it if `n` is negative.

A step of the walk adds one to the number of a day (`dayNumber_next`), and a date
is determined by its number (`dayNumber_injective`).  So the walk comes to every
date, and the date `n` days away is the one with the number `n` (`away_iff`).
-/

namespace MessageExchange.Time

/-! ## Months of a year -/

theorem one_le_monthLength (leap : Bool) (month : Nat) : 1 ≤ monthLength leap month := by
  rw [monthLength.eq_def]
  split
  · split <;> decide
  all_goals decide

theorem monthLength_le (leap : Bool) (month : Nat) : monthLength leap month ≤ 31 := by
  rw [monthLength.eq_def]
  split
  · split <;> decide
  all_goals decide

theorem daysThrough_of_pos (leap : Bool) {month : Nat} (h : 1 ≤ month) :
    daysThrough leap month = daysThrough leap (month - 1) + monthLength leap month := by
  cases month with
  | zero => cases h
  | succ month => rfl

theorem daysThrough_twelve (leap : Bool) : daysThrough leap 12 = yearLength leap := by
  cases leap <;> rfl

theorem daysThrough_le (leap : Bool) {m n : Nat} (h : m ≤ n) :
    daysThrough leap m ≤ daysThrough leap n := by
  induction h with
  | refl => exact Nat.le_refl _
  | step _ ih => exact Nat.le_trans ih (Nat.le_add_right _ _)

/-- Years follow one another. -/
theorem daysBeforeYear_le {y z : Int} (h : y ≤ z) : daysBeforeYear y ≤ daysBeforeYear z := by
  simp only [daysBeforeYear, leapsBefore]
  omega

namespace Date

@[ext] theorem ext {a b : Date} (hyear : a.year = b.year) (hmonth : a.month = b.month)
    (hday : a.day = b.day) : a = b := by
  cases a
  cases b
  simp_all

theorem month_lt (date : Date) : date.month < 100 := by
  have h := date.month_mem.2
  omega

theorem day_lt (date : Date) : date.day < 100 := by
  have h := date.day_mem.2
  have hle := monthLength_le (isLeapYear date.year) date.month
  omega

theorem ofParts?_self (date : Date) : ofParts? date.year date.month date.day = some date :=
  dif_pos ⟨date.month_mem, date.day_mem⟩

/-! ## The number of a day -/

/-- A day lies in its month, and the month lies in the year. -/
theorem day_bounds (date : Date) :
    daysThrough (isLeapYear date.year) (date.month - 1) + (date.day - 1) <
        daysThrough (isLeapYear date.year) date.month ∧
      daysThrough (isLeapYear date.year) date.month ≤ yearLength (isLeapYear date.year) := by
  have hday := date.day_mem
  have hmonth := daysThrough_of_pos (isLeapYear date.year) date.month_mem.1
  refine ⟨by omega, ?_⟩
  rw [← daysThrough_twelve]
  exact daysThrough_le _ date.month_mem.2

theorem dayNumber_bounds (date : Date) :
    daysBeforeYear date.year ≤ date.dayNumber ∧
      date.dayNumber < daysBeforeYear (date.year + 1) := by
  have hbounds := date.day_bounds
  rw [daysBeforeYear_succ, dayNumber]
  omega

/-- A date is determined by its number. -/
theorem dayNumber_injective {a b : Date} (h : a.dayNumber = b.dayNumber) : a = b := by
  have ha := a.dayNumber_bounds
  have hb := b.dayNumber_bounds
  have hyear : a.year = b.year := by
    rcases Int.lt_trichotomy a.year b.year with hlt | heq | hlt
    · have hle := daysBeforeYear_le (Int.add_one_le_of_lt hlt)
      omega
    · exact heq
    · have hle := daysBeforeYear_le (Int.add_one_le_of_lt hlt)
      omega
  have hdayA := a.day_bounds.1
  have hdayB := b.day_bounds.1
  rw [dayNumber, dayNumber, hyear] at h
  rw [hyear] at hdayA
  have hmonth : a.month = b.month := by
    rcases Nat.lt_trichotomy a.month b.month with hlt | heq | hlt
    · have hle := daysThrough_le (isLeapYear b.year) (Nat.le_sub_one_of_lt hlt)
      omega
    · exact heq
    · have hle := daysThrough_le (isLeapYear b.year) (Nat.le_sub_one_of_lt hlt)
      omega
  have hA := a.day_mem.1
  have hB := b.day_mem.1
  rw [hmonth] at h
  exact ext hyear hmonth (by omega)

/-! ## The day after -/

/-- The first of January 1970. -/
def epoch : Date := ⟨1970, 1, 1, by decide, by decide⟩

/-- The next day of the month, or else the first of the next month, or else the first of January of
the next year. -/
def next (date : Date) : Date :=
  if hday : date.day < monthLength (isLeapYear date.year) date.month then
    { date with day := date.day + 1, day_mem := ⟨Nat.le_add_left _ _, hday⟩ }
  else if hmonth : date.month < 12 then
    { date with
      month := date.month + 1
      day := 1
      month_mem := ⟨Nat.le_add_left _ _, hmonth⟩
      day_mem := ⟨Nat.le_refl _, one_le_monthLength _ _⟩ }
  else
    { year := date.year + 1
      month := 1
      day := 1
      month_mem := by decide
      day_mem := ⟨Nat.le_refl _, one_le_monthLength _ _⟩ }

theorem dayNumber_next (date : Date) : date.next.dayNumber = date.dayNumber + 1 := by
  have hday := date.day_mem
  have hmonth := date.month_mem
  have hthrough := daysThrough_of_pos (isLeapYear date.year) hmonth.1
  rw [next]
  split
  · simp only [dayNumber]
    omega
  · next hfull =>
    split
    · simp only [dayNumber, Nat.add_sub_cancel]
      omega
    · next hlast =>
      have htwelve : date.month = 12 := by omega
      have hyear := daysThrough_twelve (isLeapYear date.year)
      have hstart : daysThrough (isLeapYear (date.year + 1)) (1 - 1) = 0 := rfl
      rw [htwelve] at hthrough hfull hday
      simp only [dayNumber, daysBeforeYear_succ, htwelve, hstart]
      omega

/-- The date lies so many days after the first of January 1970, or before it. -/
inductive Away : Int → Date → Prop where
  | epoch : Away 0 epoch
  | forward {n : Int} {date : Date} : Away n date → Away (n + 1) date.next
  | backward {n : Int} {date : Date} : Away (n + 1) date.next → Away n date

theorem dayNumber_of_away {n : Int} {date : Date} (h : Away n date) : date.dayNumber = n := by
  induction h with
  | epoch => rfl
  | forward _ ih => rw [dayNumber_next, ih]
  | backward _ ih =>
      rw [dayNumber_next] at ih
      omega

theorem ofDayNumber_dayNumber (date : Date) : ofDayNumber date.dayNumber = date :=
  dayNumber_injective (dayNumber_ofDayNumber _)

theorem next_ofDayNumber (n : Int) : (ofDayNumber n).next = ofDayNumber (n + 1) := by
  apply dayNumber_injective
  rw [dayNumber_next, dayNumber_ofDayNumber, dayNumber_ofDayNumber]

theorem away_ofDayNumber (n : Int) : Away n (ofDayNumber n) := by
  induction n using Int.induction_on with
  | zero =>
      have hepoch : ofDayNumber 0 = Date.epoch := dayNumber_injective (dayNumber_ofDayNumber 0)
      rw [hepoch]
      exact .epoch
  | succ n ih =>
      rw [← next_ofDayNumber]
      exact .forward ih
  | pred n ih =>
      apply Away.backward
      rwa [next_ofDayNumber, Int.sub_add_cancel]

theorem away_dayNumber (date : Date) : Away date.dayNumber date := by
  have haway := away_ofDayNumber date.dayNumber
  rwa [ofDayNumber_dayNumber] at haway

theorem away_iff {n : Int} {date : Date} : Away n date ↔ date = ofDayNumber n := by
  constructor
  · intro h
    apply dayNumber_injective
    rw [dayNumber_of_away h, dayNumber_ofDayNumber]
  · rintro rfl
    exact away_ofDayNumber n

end Date

end MessageExchange.Time
