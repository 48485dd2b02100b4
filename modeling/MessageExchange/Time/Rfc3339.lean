import MessageExchange.Decimal.Integer
import MessageExchange.Text.WhiteSpace
import MessageExchange.Time.Instant

/-!
# RFC 3339 texts

An instant is written as a date and a time of day in universal time, as in
`2023-11-14T22:13:20.123Z`, to a given precision.  A leap second is written as
second 60.  A year outside 0 to 9999 has a sign.

Reading goes through `Fields`, the numbers of a date and time text as they stand
there.  The shape of the text decides the fields, and `Fields.toZoned?` decides
whether they name a time.  The text may have any number of digits in its
fraction, of which nine count, and any offset below a day.  Years have four
digits and no sign, so the texts of other years are not read back.

What is read is a `Zoned` time: the date and the time of day of the text, and how
far they are ahead of universal time.
-/

namespace MessageExchange.Time

/-! ## Writing -/

/-- A year: four digits from 0 to 9999, and otherwise a sign and at least four digits. -/
def yearText (year : Int) : List Char :=
  if 0 ≤ year ∧ year ≤ 9999 then Decimal.padded 4 year.toNat
  else (if year < 0 then '-' else '+') :: Decimal.padded 4 year.natAbs

/-- A date as year, month and day. -/
def Date.text (date : Date) : List Char :=
  yearText date.year ++ '-' :: Decimal.padded 2 date.month ++ '-' :: Decimal.padded 2 date.day

namespace Instant

/-- The time of day to the second. -/
def clockText (t : Instant) : List Char :=
  Decimal.padded 2 t.hour ++ ':' :: Decimal.padded 2 t.minute ++ ':' ::
    Decimal.padded 2 t.secondOfMinute

/-- Universal time as an offset, by its letter or in hours and minutes. -/
def zoneText (zulu : Bool) : List Char := if zulu then ['Z'] else ['+', '0', '0', ':', '0', '0']

/-- The instant with a given number of places of its fraction, each of them a digit.  Zero places
leave out the point. -/
def textWithPlaces (t : Instant) (places : Nat) (zulu : Bool) : List Char :=
  t.date.text ++ 'T' :: t.clockText ++
    (if places = 0 then [] else '.' :: Decimal.padded places (t.fraction / Nat.pow 10 (9 - places))) ++
    zoneText zulu

/-- The places that show the whole fraction: none, three, six or nine. -/
def exactPlaces (t : Instant) : Nat :=
  if t.fraction = 0 then 0
  else if t.fraction % 1_000_000 = 0 then 3
  else if t.fraction % 1_000 = 0 then 6
  else 9

/-- The instant with as many places as its fraction needs. -/
def exactText (t : Instant) : String := String.ofList (t.textWithPlaces t.exactPlaces true)

end Instant

/-! ## Zoned times -/

/-- A date and a time of day, on a clock that is set apart from universal time. -/
structure Zoned where
  date : Date
  /-- Seconds since the start of the day. -/
  secondOfDay : Nat
  /-- Nanoseconds since the start of the second, as in an instant. -/
  nanos : Nat
  /-- The seconds by which the clock is ahead of universal time. -/
  offset : Int
  /-- The clock shows this time at some instant. -/
  second_mem : minSecond ≤ date.dayNumber * 86400 + secondOfDay - offset ∧
    date.dayNumber * 86400 + secondOfDay - offset ≤ maxSecond
  nanos_lt : nanos < 2_000_000_000

namespace Zoned

@[ext] theorem ext {z z' : Zoned} (hdate : z.date = z'.date)
    (hsecond : z.secondOfDay = z'.secondOfDay) (hnanos : z.nanos = z'.nanos)
    (hoffset : z.offset = z'.offset) : z = z' := by
  cases z; cases z'; simp_all

/-- The seconds that the clock counts since its start of 1970. -/
def localSecond (z : Zoned) : Int := z.date.dayNumber * 86400 + z.secondOfDay

/-- The instant at which the clock shows the time. -/
def toInstant (z : Zoned) : Instant := ⟨z.localSecond - z.offset, z.nanos, z.second_mem, z.nanos_lt⟩

end Zoned

/-! ## Fields -/

/-- The numbers of a date and time text. -/
structure Fields where
  /-- The year, of four digits. -/
  year : Nat
  /-- The month, of two digits. -/
  month : Nat
  /-- The day of the month, of two digits. -/
  day : Nat
  /-- The hour, of two digits. -/
  hour : Nat
  /-- The minute, of two digits. -/
  minute : Nat
  /-- The second, of two digits. -/
  second : Nat
  /-- The fraction of the second in nanoseconds. -/
  nanos : Nat
  /-- The sign of the offset. -/
  offsetNegative : Bool
  /-- The hours of the offset, of two digits. -/
  offsetHour : Nat
  /-- The minutes of the offset, of two digits. -/
  offsetMinute : Nat
deriving Repr, DecidableEq

namespace Fields

/-- The seconds by which the local time is ahead of universal time. -/
def offset (f : Fields) : Int :=
  let seconds : Int := f.offsetHour * 3600 + f.offsetMinute * 60
  if f.offsetNegative then -seconds else seconds

/-- Are the time of day and the offset ones that exist?  Second 60 exists in every minute. -/
def clockInRange (f : Fields) : Bool :=
  f.hour ≤ 23 && f.minute ≤ 59 && f.second ≤ 60 && f.offsetMinute ≤ 59 && f.offsetHour ≤ 23

/-- The time that the fields name, if the date, the time of day and the offset exist.  Second 60
is second 59 with a thousand million nanoseconds more. -/
def toZoned? (f : Fields) : Option Zoned := do
  let date ← Date.ofParts? f.year f.month f.day
  let secondOfDay := f.hour * 3600 + f.minute * 60 + min f.second 59
  let nanos := f.nanos + (if f.second = 60 then 1_000_000_000 else 0)
  let second := date.dayNumber * 86400 + secondOfDay - f.offset
  if h : f.clockInRange ∧ (minSecond ≤ second ∧ second ≤ maxSecond) ∧ nanos < 2_000_000_000 then
    some ⟨date, secondOfDay, nanos, f.offset, h.2.1, h.2.2⟩
  else none

end Fields

/-! ## Reading -/

/-- Takes a number of exactly `count` digits off a text. -/
def takeDigits? (count : Nat) (text : List Char) : Option (Nat × List Char) :=
  let digits := text.take count
  if digits.length = count then (Decimal.readNat? digits).map fun n => (n, text.drop count) else none

/-- Takes one of a set of characters off a text. -/
def takeOneOf? (allowed : List Char) : List Char → Option (Char × List Char)
  | c :: rest => if c ∈ allowed then some (c, rest) else none
  | [] => none

/-- The nanoseconds that the digits after a point stand for.  Digits after the ninth are dropped. -/
def nanosOfDigits (digits : List Char) : Nat :=
  Nat.ofDigitChars 10 ((digits.take 9).rightpad 9 '0') 0

/-- Takes a fraction off a text: a point and one or more digits, or nothing. -/
def takeFraction? : List Char → Option (Nat × List Char)
  | '.' :: rest =>
      match rest.takeWhile Char.isDigit with
      | [] => none
      | digits => some (nanosOfDigits digits, rest.dropWhile Char.isDigit)
  | text => some (0, text)

/-- Takes an offset off a text: `Z`, or a sign, hours and minutes. -/
def takeOffset? (text : List Char) : Option ((Bool × Nat × Nat) × List Char) := do
  let (sign, rest) ← takeOneOf? ['Z', 'z', '+', '-', '−'] text
  if sign = 'Z' ∨ sign = 'z' then some ((false, 0, 0), rest)
  else
    let (hour, rest) ← takeDigits? 2 rest
    let (_, rest) ← takeOneOf? [':'] rest
    let (minute, rest) ← takeDigits? 2 rest
    some ((sign != '+', hour, minute), rest)

/-- The fields of a date and time text, if it has the right shape. -/
def Fields.read? (text : List Char) : Option Fields := do
  let (year, text) ← takeDigits? 4 text
  let (_, text) ← takeOneOf? ['-'] text
  let (month, text) ← takeDigits? 2 text
  let (_, text) ← takeOneOf? ['-'] text
  let (day, text) ← takeDigits? 2 text
  let (_, text) ← takeOneOf? ['T', 't', ' '] text
  let (hour, text) ← takeDigits? 2 text
  let (_, text) ← takeOneOf? [':'] text
  let (minute, text) ← takeDigits? 2 text
  let (_, text) ← takeOneOf? [':'] text
  let (second, text) ← takeDigits? 2 text
  let (nanos, text) ← takeFraction? text
  let ((offsetNegative, offsetHour, offsetMinute), text) ← takeOffset? text
  if text.isEmpty then
    some { year, month, day, hour, minute, second, nanos, offsetNegative, offsetHour, offsetMinute }
  else none

end MessageExchange.Time
