import MessageExchange.Decimal.Integer
import MessageExchange.Environment
import MessageExchange.Options.Basic
import MessageExchange.Text.WhiteSpace

/-!
# Integer options

An integer option is a text that holds a whole number of 32 bits, with white
space around it.  It may instead be a *placeholder* that says where the number
stands: `{{name}}` for the option `name` and `{{env:NAME}}` for the environment
variable `NAME`.  The text found there is read as a number and never as a
placeholder again.
-/

namespace MessageExchange

/-- Where the text of a number stands. -/
inductive NumberSource where
  /-- The text itself. -/
  | literal (text : String)
  /-- The option with a key. -/
  | option (key : String)
  /-- The environment variable with a name. -/
  | environment (name : String)
deriving Repr, DecidableEq

namespace NumberSource

/-- The text between two opening and two closing braces. -/
def braced? : List Char → Option (List Char)
  | '\x7b' :: '\x7b' :: rest =>
      match rest.reverse with
      | '\x7d' :: '\x7d' :: inner => some inner.reverse
      | _ => none
  | _ => none

/-- The source that the text of a placeholder names. -/
def ofName : List Char → NumberSource
  | 'e' :: 'n' :: 'v' :: ':' :: name => environment (String.ofList name)
  | key => option (String.ofList key)

/-- The source that a text without white space around it names. -/
def ofText (text : List Char) : NumberSource :=
  match braced? text with
  | some inner => ofName (Text.trim inner)
  | none => literal (String.ofList text)

/-- The text of the placeholder between its braces. -/
def name : NumberSource → String
  | literal text => text
  | option key => key
  | environment name => "env:" ++ name

/-- The text that a source gives, if it gives one. -/
def resolve? (options : Options) (env : Environment) : NumberSource → Option String
  | literal text => some text
  | option key => options.find? key
  | environment name => env.lookup? name

end NumberSource

namespace Options

/-- The whole number of 32 bits that a text stands for, with white space around it. -/
def int32? (text : String) : Option Int32 :=
  (Decimal.readInt? (Text.trim text.toList)).bind Decimal.toInt32?

/-- The number that the text of an integer option stands for. -/
def readInteger (options : Options) (env : Environment) (text : String) :
    Except ExchangeError Int32 :=
  let source := NumberSource.ofText (Text.trim text.toList)
  match source.resolve? options env with
  | none =>
      .error (.invalidConfiguration ("Property with key [" ++ source.name ++ "] not found"))
  | some resolved =>
      match int32? resolved with
      | some n => .ok n
      | none =>
          .error (.invalidConfiguration ("Error parsing [" ++ text ++ "] as an Integer."))

/-- The number that an integer option stands for, if it is set. -/
def parseInteger (options : Options) (env : Environment) :
    Option String → Except ExchangeError (Option Int32)
  | none => .ok none
  | some text => (options.readInteger env text).map some

end Options

end MessageExchange
