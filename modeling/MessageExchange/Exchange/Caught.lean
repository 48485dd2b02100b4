import MessageExchange.Conversion
import MessageExchange.Exchange.Basic

/-!
# The failure of an exchange

The failure that an exchange itself carries counts first.  If there is none, the
failure that an error handler has caught counts, which is kept in a property.  A
property that does not convert to a failure counts as none.
-/

namespace MessageExchange.Exchange

/-- The failure of an exchange. -/
def failure? (converter : TypeConverter) (x : Exchange) : Option Failure :=
  x.exception.or ((x.property? exceptionCaughtKey).bind converter.toFailure)

/-- The message of the failure. -/
def failureMessage? (converter : TypeConverter) (x : Exchange) : Option String :=
  (x.failure? converter).bind Failure.message?

/-- The stack trace of the failure, unless writing it into a text fails. -/
def failureStackTrace? (converter : TypeConverter) (x : Exchange) : Option String := do
  let failure ← x.failure? converter
  match (failure.writeStackTrace Bounded.append).run.run "" with
  | (.ok _, trace) => some trace
  | (.error _, _) => none

end MessageExchange.Exchange
