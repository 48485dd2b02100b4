import MessageExchange.Dictionary
import MessageExchange.Exchange.Id
import MessageExchange.Headers
import MessageExchange.Time.Chronology

/-!
# Exchanges

An exchange is the unit of work that flows through a pipeline.  It carries a
message, which is a body and headers, further properties, and a failure if one
arose.  Property keys are told apart by case, unlike header names, and the
properties are in no order.

The time of creation is kept to the millisecond.  What lies below is cut off by a
chronology when the time is set.
-/

namespace MessageExchange

open MessageExchange.Time (Chronology Instant)

/-! ## Reserved names -/

/-- The property that holds a failure which an error handler has caught. -/
def exceptionCaughtKey : String := "RelayExceptionCaught"

/-- The header that holds the time of a file's last change. -/
def fileLastModifiedKey : String := "RelayFileLastModified"

/-- The option that limits how many characters of a body are shown. -/
def bodyMaxCharsKey : String := "RelayLogDebugBodyMaxChars"

/-! ## The types -/

/-- A body and headers. -/
structure Message where
  body : Value := .null
  headers : Headers := .empty

instance : Inhabited Message := ⟨{}⟩

/-- The unit of work that flows through a pipeline. -/
structure Exchange where
  /-- Tells the exchange apart. -/
  id : ExchangeId
  /-- The body and the headers. -/
  message : Message
  /-- Further values, by key. -/
  properties : Dictionary Value
  /-- The failure that arose, if one did. -/
  exception : Option Failure
  /-- The time of creation. -/
  created : Instant

namespace Exchange

/-- A new exchange without a body, headers, properties or a failure. -/
def new (id : ExchangeId) (created : Instant) (chronology : Chronology := .standard) : Exchange :=
  { id
    message := {}
    properties := .empty
    exception := none
    created := chronology.truncate 3 created }

/-! ## The message -/

/-- The exchange with another body. -/
def setBody (x : Exchange) (body : Value) : Exchange :=
  { x with message := { x.message with body } }

/-- The exchange with other headers. -/
def setHeaders (x : Exchange) (headers : Headers) : Exchange :=
  { x with message := { x.message with headers } }

/-- The exchange with a header set. -/
def setHeader (x : Exchange) (name : String) (value : Value) : Exchange :=
  x.setHeaders (x.message.headers.insert name value)

/-- The exchange without a header. -/
def removeHeader (x : Exchange) (name : String) : Exchange :=
  x.setHeaders (x.message.headers.erase name)

/-- The value of a header. -/
def header? (x : Exchange) (name : String) : Option Value := x.message.headers.find? name

/-! ## Properties -/

/-- The exchange with a property set. -/
def setProperty (x : Exchange) (key : String) (value : Value) : Exchange :=
  { x with properties := x.properties.insert key value }

/-- The exchange without a property. -/
def removeProperty (x : Exchange) (key : String) : Exchange :=
  { x with properties := x.properties.erase key }

/-- The value of a property. -/
def property? (x : Exchange) (key : String) : Option Value := x.properties.find? key

/-! ## The failure and the time of creation -/

/-- The exchange with another failure, or with none. -/
def setException (x : Exchange) (exception : Option Failure) : Exchange := { x with exception }

/-- The exchange with another time of creation, cut to the millisecond. -/
def setCreated (x : Exchange) (created : Instant) (chronology : Chronology := .standard) :
    Exchange :=
  { x with created := chronology.truncate 3 created }

/-- The time of creation in milliseconds since the start of 1970. -/
def createdMillis (x : Exchange) (chronology : Chronology := .standard) : Int64 :=
  chronology.millis x.created

end Exchange

end MessageExchange
