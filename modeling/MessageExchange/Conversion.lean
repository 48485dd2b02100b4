import MessageExchange.Time.Chronology
import MessageExchange.Value

/-!
# Conversions

Values convert leniently to texts, whole numbers, instants and failures.

* Text: every value but null has one.  Bytes have one if they are well-formed
  UTF-8, and a failure without a message shows its type name.
* Whole number: an integer, a double whose value is an integer of 64 bits, or a
  text that is one, with white space around it.
* Instant: an instant, or an RFC 3339 text with white space around it.  Numbers
  are left to the caller, who knows their unit.
* Failure: a failure.

A conversion that does not exist is an error that names both types.  Instants are
written and read by a chronology.  A `TypeConverter` is what the rest of the
library converts with: four functions that may be replaced.  The standard one
uses the conversions of this module.
-/

namespace MessageExchange

open MessageExchange.Time (Chronology Instant)

namespace Value

/-! ## Direct conversions -/

/-- The error of a value that does not convert to `target`. -/
def noConversion (v : Value) (target : String) : ExchangeError :=
  .noTypeConversion v.typeName target

/-- A value as text. -/
def asText (v : Value) (chronology : Chronology := .standard) : Except ExchangeError String :=
  match v with
  | null => .error (null.noConversion "String")
  | bool b => .ok (if b then "true" else "false")
  | int n => .ok (String.ofList (Decimal.ofInt n.toInt))
  | double x => .ok x.text
  | text s => .ok s
  | bytes b =>
      match String.fromUTF8? b with
      | some s => .ok s
      | none => .error ((bytes b).noConversion "String")
  | instant t => .ok (chronology.text .millis true t)
  | failure f => .ok (f.message?.getD f.typeName)

/-- The whole number of 64 bits that a value stands for, if it stands for one. -/
def long? : Value → Option Int64
  | int n => some n
  | double x =>
      if x.isFinite && x.isWhole then
        -- The greatest word is rounded up as a double, so it is itself too great.
        if (Binary64.ofInt64 Int64.minValue).atMost x && x.less (Binary64.ofInt64 Int64.maxValue) then
          some x.toInt64
        else none
      else none
  | text s => (Decimal.readInt? (Text.trim s.toList)).bind Decimal.toInt64?
  | _ => none

/-- A value as a whole number of 64 bits. -/
def asLong (v : Value) : Except ExchangeError Int64 :=
  match v.long? with
  | some n => .ok n
  | none => .error (v.noConversion "i64")

/-- The instant that a value stands for, if it stands for one. -/
def instant? (v : Value) (chronology : Chronology := .standard) : Option Instant :=
  match v with
  | instant t => some t
  | text s =>
      (chronology.read? (String.ofList (Text.trim s.toList))).map chronology.toUniversal
  | _ => none

/-- A value as an instant. -/
def asInstant (v : Value) (chronology : Chronology := .standard) : Except ExchangeError Instant :=
  match v.instant? chronology with
  | some t => .ok t
  | none => .error (v.noConversion "DateTime<Utc>")

/-- A value as a failure. -/
def asFailure : Value → Except ExchangeError Failure
  | failure f => .ok f
  | v => .error (v.noConversion "Failure")

end Value

/-! ## Converters -/

/-- What values are converted with.  Each function gives nothing where no conversion exists. -/
structure TypeConverter where
  /-- The text of a value. -/
  toText : Value → Option String
  /-- The whole number that a value stands for. -/
  toLong : Value → Option Int64
  /-- The instant that a value stands for. -/
  toInstant : Value → Option Instant
  /-- The failure that a value holds. -/
  toFailure : Value → Option Failure

/-- The converter that uses the direct conversions. -/
def TypeConverter.standard (chronology : Chronology := .standard) : TypeConverter where
  toText v := (v.asText chronology).toOption
  toLong v := v.asLong.toOption
  toInstant v := (v.asInstant chronology).toOption
  toFailure v := v.asFailure.toOption

instance : Inhabited TypeConverter := ⟨.standard⟩

end MessageExchange
