import MessageExchange.Options.Bytes

/-!
# Readers of JSON

JSON is the work of a library of its own.  A `Decoder` is what such a library does
for this one: it reads a JSON object of strings from a text or from bytes and hands
over its members one by one, or says what is wrong.  It builds no map, so what
becomes of a key that occurs twice is for the caller to decide.

`Decoder.standard` is made of the definitions of the modules before this one.  It
does not say what is wrong.
-/

namespace MessageExchange.Json

/-- What reads JSON objects of strings. -/
structure Decoder where
  /-- The members of the object that a text holds, in the order they stand in, or an error. -/
  ofText : String → Except String (List (String × String))
  /-- The members of the object that bytes hold, in the order they stand in, or an error. -/
  ofBytes : ByteArray → Except String (List (String × String))

/-- The strict reader. -/
def Decoder.standard : Decoder where
  ofText text := (object? text).elim (.error "") .ok
  ofBytes content := (objectOfBytes? content).elim (.error "") .ok

instance : Inhabited Decoder := ⟨.standard⟩

end MessageExchange.Json
