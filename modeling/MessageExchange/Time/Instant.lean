import MessageExchange.Time.Calendar

/-!
# Instants

An instant is a second of universal time and the nanoseconds that have passed in
it.  Seconds are counted from the start of 1970 and may be negative, while the
nanoseconds always count forward.  Instants reach from the year -262143 to the
year 262142.

A second may last for up to two thousand million nanoseconds.  That is how a *leap
second*, a minute's second 60, is kept: as the second 59 with a thousand million
nanoseconds or more.

`ofMillis?` and `millis` convert from and to milliseconds since the start of
1970.  The milliseconds of a leap second go on into the next second, so there the
two are not inverse.
-/

namespace MessageExchange.Time

/-! ## The type -/

/-- The first second of an instant. -/
def minSecond : Int := -8334601228800

/-- The last second of an instant. -/
def maxSecond : Int := 8210266876799

/-- A point of universal time, to the nanosecond. -/
structure Instant where
  /-- Whole seconds since the start of 1970. -/
  second : Int
  /-- Nanoseconds since the start of the second. -/
  nanos : Nat
  /-- The second is in range. -/
  second_mem : minSecond ≤ second ∧ second ≤ maxSecond
  /-- A second and the leap second after it are not over. -/
  nanos_lt : nanos < 2_000_000_000
deriving DecidableEq

namespace Instant

@[ext] theorem ext {s t : Instant} (hs : s.second = t.second) (hn : s.nanos = t.nanos) : s = t := by
  cases s; cases t; simp_all

/-- The instant with a second and nanoseconds, if there is one. -/
def ofParts? (second : Int) (nanos : Nat) : Option Instant :=
  if h : (minSecond ≤ second ∧ second ≤ maxSecond) ∧ nanos < 2_000_000_000 then
    some ⟨second, nanos, h.1, h.2⟩
  else none

/-- The start of 1970. -/
def epoch : Instant := ⟨0, 0, by decide, by decide⟩

instance : Inhabited Instant := ⟨epoch⟩

/-- Is the instant in a leap second? -/
def isLeap (t : Instant) : Bool := decide (1_000_000_000 ≤ t.nanos)

/-! ## Milliseconds -/

/-- The instant a number of milliseconds after the start of 1970. -/
def ofMillis? (millis : Int) : Option Instant :=
  ofParts? (millis / 1000) ((millis % 1000).toNat * 1_000_000)

/-- The milliseconds since the start of 1970, rounded down. -/
def millis (t : Instant) : Int := t.second * 1000 + (t.nanos / 1_000_000 : Nat)

/-- The instant with so many decimal places of its second and zeros after them.  The second stays,
also a leap second. -/
def truncate (places : Nat) (t : Instant) : Instant :=
  { t with
    nanos := t.nanos - t.nanos % Nat.pow 10 (9 - places)
    nanos_lt := Nat.lt_of_le_of_lt (Nat.sub_le _ _) t.nanos_lt }

/-! ## The calendar day and the time of day -/

/-- The day of the instant. -/
def date (t : Instant) : Date := Date.ofDayNumber (t.second / 86400)

/-- The seconds since the start of the day. -/
def secondOfDay (t : Instant) : Nat := (t.second % 86400).toNat

/-- The hour of the day. -/
def hour (t : Instant) : Nat := t.secondOfDay / 3600

/-- The minute of the hour. -/
def minute (t : Instant) : Nat := t.secondOfDay / 60 % 60

/-- The second of the minute as it is shown, one more in a leap second. -/
def secondOfMinute (t : Instant) : Nat :=
  t.secondOfDay % 60 + (if t.isLeap then 1 else 0)

/-- The nanoseconds of the second that `secondOfMinute` shows. -/
def fraction (t : Instant) : Nat := t.nanos % 1_000_000_000

end Instant

end MessageExchange.Time
