import MessageExchange.Error
import MessageExchange.KeyMap
import MessageExchange.Options.Decoder

/-!
# Options

Options are texts by name, shared by everything that runs in one context.  They
are read from a JSON object of strings by a decoder.  A key that occurs twice has
the value of its last occurrence.

A file of options is read as bytes.  It is refused if it is missing, if it cannot
be read, or if its bytes hold no object of strings.  Every refusal says why, in the
words of the system or of the decoder.
-/

namespace MessageExchange

/-- Texts by name. -/
abbrev Options := KeyMap String

/-- What opening and reading a file gives. -/
inductive FileContent where
  /-- There is no such file. -/
  | missing (reason : String := "")
  /-- The file opens but cannot be read. -/
  | unreadable (reason : String := "")
  /-- The bytes of the file. -/
  | bytes (content : ByteArray)

namespace Options

/-- The options that a JSON text holds. -/
def ofJson (text : String) (decoder : Json.Decoder := .standard) : Except ExchangeError Options :=
  match decoder.ofText text with
  | .ok members => .ok (KeyMap.ofList members)
  | .error reason => .error (.invalidConfiguration ("global options: " ++ reason))

/-- The options that a file holds. -/
def ofFile (path : String) (file : FileContent) (decoder : Json.Decoder := .standard) :
    Except ExchangeError Options :=
  match file with
  | .missing reason => .error (.invalidConfiguration ("cannot open " ++ path ++ ": " ++ reason))
  | .unreadable reason => .error (.invalidConfiguration ("cannot parse " ++ path ++ ": " ++ reason))
  | .bytes content =>
      match decoder.ofBytes content with
      | .ok members => .ok (KeyMap.ofList members)
      | .error reason => .error (.invalidConfiguration ("cannot parse " ++ path ++ ": " ++ reason))

end Options

end MessageExchange
