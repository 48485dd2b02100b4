import MessageExchange.Time.Rfc3339

/-!
# Chronologies

Dates and times of day are the work of a library of their own.  A `Chronology` is
what such a library does for this one: it writes an instant as an RFC 3339 text
and reads such texts, and it converts instants from and to milliseconds.  So
everything that writes or reads an instant takes a chronology as an argument.

`Chronology.standard` is made of the definitions of the modules before this one.
-/

namespace MessageExchange.Time

/-! ## What is asked of a chronology -/

/-- How exactly a text shows the second. -/
inductive Precision where
  | seconds
  | millis
  | micros
  | nanos
deriving Repr, DecidableEq

/-- The decimal places of the second. -/
def Precision.places : Precision → Nat
  | seconds => 0
  | millis => 3
  | micros => 6
  | nanos => 9

/-- The instants of a local time.  There may be none, or two where a clock is set back. -/
inductive LocalResult where
  | none
  | single (t : Instant)
  | ambiguous (earliest latest : Instant)
deriving DecidableEq

/-- The instant of a local time that has no other. -/
def LocalResult.single? : LocalResult → Option Instant
  | .single t => some t
  | _ => Option.none

/-! ## The type -/

/-- What a library of dates and times of day does. -/
structure Chronology where
  /-- The RFC 3339 text of an instant in universal time.  The flag asks for the letter `Z` in place
  of an offset. -/
  text : Precision → Bool → Instant → String
  /-- The time that an RFC 3339 text names. -/
  read? : String → Option Zoned
  /-- The instant of a time. -/
  toUniversal : Zoned → Instant
  /-- What is a number of milliseconds after the start of 1970 in universal time. -/
  ofMillis : Int64 → LocalResult
  /-- The milliseconds from the start of 1970 to an instant. -/
  millis : Instant → Int64
  /-- The instant cut to a number of decimal places of its second. -/
  truncate : Nat → Instant → Instant

/-- The proleptic Gregorian calendar. -/
def Chronology.standard : Chronology where
  text precision zulu t := String.ofList (t.textWithPlaces precision.places zulu)
  read? text := (Fields.read? text.toList).bind Fields.toZoned?
  toUniversal := Zoned.toInstant
  ofMillis millis :=
    match Instant.ofMillis? millis.toInt with
    | some t => .single t
    | none => .none
  millis t := Int64.ofInt t.second * 1000 + Int64.ofNat (t.nanos / 1_000_000)
  truncate := Instant.truncate

instance : Inhabited Chronology := ⟨.standard⟩

end MessageExchange.Time
