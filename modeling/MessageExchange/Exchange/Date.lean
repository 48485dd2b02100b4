import MessageExchange.Comparison
import MessageExchange.Exchange.Basic

/-!
# Dates of an exchange

A command such as `header.file.date` asks for a date.  What follows its last dot
is the key of a header or a property.  An instant under the key is the date, and
a whole number is the date in milliseconds since the start of 1970, if a
chronology knows an instant there.

Everything else goes to the *fallback* of the caller, with the value, or with
nothing if the value is missing or null.  A whole number outside the range of
instants is not passed on.  The fallback runs in a monad of the caller's choice,
so what it is called with can be observed.

The date of a file has rules of its own and no fallback.  A positive number of
milliseconds counts first, in whatever form, and then any instant.
-/

namespace MessageExchange

open MessageExchange.Time (Chronology Instant)

/-! ## Commands -/

/-- The part of a command after its last dot, or the whole command if it has no dot. -/
def commandKey (command : String) : String :=
  String.ofList (command.toList.reverse.takeWhile fun c => c ≠ '.').reverse

/-! ## Headers and properties -/

/-- The instant a number of milliseconds after the start of 1970. -/
def fromMillis (chronology : Chronology) (millis : Int64) : Option Instant :=
  (chronology.ofMillis millis).single?

/-- A way to find a date when the value is none itself, given what the value is. -/
abbrev DateFallback (m : Type → Type) := Exchange → Option Value → m (Option Instant)

/-- The date that a value stands for, or what the fallback says. -/
def resolveDate {m : Type → Type} [Monad m] (x : Exchange) (value : Option Value)
    (fallback : Option (DateFallback m)) (chronology : Chronology := .standard) :
    m (Option Instant) :=
  match present? value with
  | some (.instant t) => pure (some t)
  | some (.int millis) => pure (fromMillis chronology millis)
  | other =>
      match fallback with
      | some f => f x other
      | none => pure none

namespace Exchange

/-- The date under the key of a command among the headers. -/
def dateOfHeader {m : Type → Type} [Monad m] (x : Exchange) (command : String)
    (fallback : Option (DateFallback m)) (chronology : Chronology := .standard) :
    m (Option Instant) :=
  resolveDate x (x.header? (commandKey command)) fallback chronology

/-- The date under the key of a command among the properties. -/
def dateOfProperty {m : Type → Type} [Monad m] (x : Exchange) (command : String)
    (fallback : Option (DateFallback m)) (chronology : Chronology := .standard) :
    m (Option Instant) :=
  resolveDate x (x.property? (commandKey command)) fallback chronology

/-- The time of creation. -/
def dateOfCreation (x : Exchange) : Instant := x.created

/-! ## Files -/

/-- The instant that a positive number of milliseconds stands for. -/
def positiveMillis? (chronology : Chronology := .standard) (millis : Int64) : Option Instant :=
  if 0 < millis.toInt then fromMillis chronology millis else none

/-- The time of a file's last change, as the reserved header holds it.  The command is named if there
is none. -/
def dateOfFile (converter : TypeConverter) (x : Exchange) (command : String)
    (chronology : Chronology := .standard) : Except ExchangeError Instant :=
  let header := x.header? fileLastModifiedKey
  match ((header.bind converter.toLong).bind (positiveMillis? chronology)).or
      (header.bind converter.toInstant) with
  | some t => .ok t
  | none =>
      .error (.illegalArgument
        ("Cannot find " ++ fileLastModifiedKey ++ " header at command: " ++ command))

end Exchange

end MessageExchange
