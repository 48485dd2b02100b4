import MessageExchange.Exchange.Caught
import MessageExchange.Text.WhiteSpace

/-!
# Dumps

A *dump* is the text of an exchange for a log.  It is a list of sections in a
fixed order, each with a label, between `Exchange[` and `]`.  The settings say
which sections appear, in which style, and how much of the body is shown.

What a section says depends on the exchange, the style and the limit of the body,
and never on which other sections appear.  A section about the failure is left
out if there is no failure.

The styles are these.

* plain: `Label: text`, with a comma between sections.
* tab: a tab before each label and nothing between sections.
* fixed: labels filled up with spaces to a width of 20.

With one section to a line, the lines stand between the first line `Exchange[`
and the last line `]`, and the plain style indents them by two spaces.
-/

namespace MessageExchange

/-! ## Settings -/

/-- How labels and sections are set apart. -/
inductive DumpStyle where
  /-- `Label: text`, separated by commas. -/
  | plain
  /-- A tab before every label. -/
  | tab
  /-- Labels of a fixed width. -/
  | fixed
deriving Repr, DecidableEq

/-- What a dump shows and how. -/
structure DumpSettings where
  /-- Show the identifier. -/
  showId : Bool := false
  /-- Show the headers. -/
  showHeaders : Bool := false
  /-- Show the properties. -/
  showProperties : Bool := false
  /-- Show the type of the body. -/
  showBodyType : Bool := true
  /-- Show the body. -/
  showBody : Bool := true
  /-- Show the failure. -/
  showException : Bool := true
  /-- Show the stack trace of the failure. -/
  showStackTrace : Bool := false
  /-- Give every section a line. -/
  multiline : Bool := false
  /-- The style. -/
  style : DumpStyle := .plain
  /-- The number of characters of the body to show.  Zero and negative numbers show all. -/
  maxChars : Int32 := 10000
deriving DecidableEq

instance : Inhabited DumpSettings := ⟨{}⟩

/-! ## Sections -/

/-- A section of a dump. -/
inductive DumpSection where
  /-- The identifier. -/
  | id
  | headers
  /-- The properties. -/
  | properties
  /-- The type of the body. -/
  | bodyType
  | body
  /-- The failure. -/
  | exception
  /-- The stack trace of the failure. -/
  | stackTrace
deriving Repr, DecidableEq

namespace DumpSection

/-- The sections in the order of a dump. -/
def all : List DumpSection := [id, headers, properties, bodyType, body, exception, stackTrace]

/-- The word that a section starts with. -/
def title : DumpSection → String
  | id => "Id"
  | headers => "Headers"
  | properties => "Properties"
  | bodyType => "BodyType"
  | body => "Body"
  | exception => "Exception"
  | stackTrace => "StackTrace"

end DumpSection

namespace DumpSettings

/-- Is a section shown? -/
def shows (settings : DumpSettings) : DumpSection → Bool
  | .id => settings.showId
  | .headers => settings.showHeaders
  | .properties => settings.showProperties
  | .bodyType => settings.showBodyType
  | .body => settings.showBody
  | .exception => settings.showException
  | .stackTrace => settings.showStackTrace

/-- The width of a label in the fixed style. -/
def labelWidth : Nat := 20

/-- A title as the label of a section. -/
def label (settings : DumpSettings) (title : String) : String :=
  match settings.style with
  | .plain => if settings.multiline then "  " ++ title ++ ": " else title ++ ": "
  | .tab => "\t" ++ title ++ ": "
  | .fixed => String.ofList (title.toList.rightpad labelWidth ' ')

/-- What stands between two sections. -/
def separator (settings : DumpSettings) : String :=
  if settings.multiline then "\n"
  else
    match settings.style with
    | .plain => ", "
    | .tab => ""
    | .fixed => " "

/-! ## What the sections say -/

/-- The text of a header or a property.  A value without a text shows its type in brackets. -/
def valueText (converter : TypeConverter) (value : Value) : String :=
  if value.isNull then "null"
  else
    match converter.toText value with
    | some text => text
    | none => "[" ++ value.typeName ++ "]"

/-- Keys and values in braces. -/
def mapText (converter : TypeConverter) (entries : List (String × Value)) : String :=
  let shown := entries.map fun entry => entry.1 ++ "=" ++ valueText converter entry.2
  "\x7b" ++ ", ".intercalate shown ++ "\x7d"

/-- A text cut after `limit` characters, with a note on how long it was.  A text that is no longer
than that is left whole. -/
def clip (limit : Nat) (text : String) : String :=
  let chars := text.toList
  if chars.length ≤ limit then text
  else
    String.ofList (chars.take limit) ++ "... [Body clipped after " ++
      String.ofList (Decimal.ofNat limit) ++ " chars, total length is " ++
      String.ofList (Decimal.ofNat chars.length) ++ "]"

/-- The text of a body. -/
def bodyText (settings : DumpSettings) (converter : TypeConverter) (body : Value) : String :=
  if body.isNull then "[Body is null]"
  else
    match converter.toText body with
    | none => "[Body is instance of " ++ body.typeName ++ "]"
    | some text =>
        if 0 < settings.maxChars.toInt then clip settings.maxChars.toInt.toNat text else text

/-- What a section says.  The sections on the failure say nothing if there is none. -/
def content? (settings : DumpSettings) (converter : TypeConverter) (x : Exchange) :
    DumpSection → Option String
  | .id => some x.id.text
  | .headers => some (mapText converter x.message.headers.toList)
  | .properties =>
      -- Properties are in no order, so they are sorted by their keys first.
      some (mapText converter (KeyMap.ofList x.properties.toList).toList)
  | .bodyType => some x.message.body.typeName
  | .body => some (settings.bodyText converter x.message.body)
  | .exception => (x.failure? converter).map Failure.display
  | .stackTrace =>
      (x.failureStackTrace? converter).map fun trace => String.ofList (Text.trimEnd trace.toList)

/-- A section with its label. -/
def sectionText? (settings : DumpSettings) (converter : TypeConverter) (x : Exchange)
    (shown : DumpSection) : Option String :=
  (settings.content? converter x shown).map fun content => settings.label shown.title ++ content

/-- The texts of the sections that are shown, in order. -/
def sections (settings : DumpSettings) (converter : TypeConverter) (x : Exchange) : List String :=
  (DumpSection.all.filter settings.shows).filterMap (settings.sectionText? converter x)

/-- The sections between the brackets of a dump. -/
def frame (settings : DumpSettings) (joined : String) : String :=
  if settings.multiline then "Exchange[\n" ++ joined ++ "\n]" else "Exchange[" ++ joined ++ "]"

/-- The dump of an exchange. -/
def dump (settings : DumpSettings) (converter : TypeConverter) (x : Exchange) : String :=
  settings.frame (settings.separator.intercalate (settings.sections converter x))

end DumpSettings

/-! ## Formatters -/

/-- A way to write an exchange.  Formatters are shared, and the identity tells which one it is. -/
structure Formatter where
  /-- Which formatter this is. -/
  identity : Nat
  /-- The text of an exchange. -/
  format : TypeConverter → Exchange → String

/-- The formatter that dumps with given settings. -/
def DumpSettings.toFormatter (settings : DumpSettings) (identity : Nat) : Formatter :=
  ⟨identity, settings.dump⟩

end MessageExchange
