import MessageExchange.Context
import MessageExchange.Text.Lines
import MessageExchange.Text.WhiteSpace

/-!
# Modelines

A modeline is a comment line of a source that declares traits, as in
`// relay: dependency=mvn:org.example:client:1.2`.  It is white space, `//` or
`#`, white space, `relay:` and the declarations.

The declarations are words.  A word with an equals sign declares the trait whose
name stands before the first one, without regard to case, and the value is what
stands after it.  A word without one is skipped, and so is an unknown trait.

A trait makes a *customizer* out of a declaration.  Nothing happens until the
customizer is applied to a context; the events that this gives are of a type `ε`
that the user of the library chooses.
-/

namespace MessageExchange

variable {ε : Type}

/-! ## Traits and customizers -/

/-- Where a source was read from. -/
structure Resource where
  location : String
deriving Repr, DecidableEq

/-- A change that is applied to a context. -/
structure Customizer (ε : Type) where
  /-- The events of applying it. -/
  configure : Context ε → List ε

/-- A kind of declaration. -/
structure ModelineTrait (ε : Type) where
  /-- The name, in the spelling it was given. -/
  name : String
  /-- The customizer of a declaration with a value. -/
  customizer : Resource → String → Customizer ε

/-! ## The parts of a line -/

namespace Modeline

/-- The text after a given start. -/
def afterStart? : List Char → List Char → Option (List Char)
  | [], text => some text
  | _ :: _, [] => none
  | c :: start, d :: text => if c = d then afterStart? start text else none

/-- The text after the characters that start a comment. -/
def comment? (line : List Char) : Option (List Char) :=
  (afterStart? ['/', '/'] line).or (afterStart? ['#'] line)

/-- The declarations of a line, if it is a modeline. -/
def declarations? (line : List Char) : Option (List Char) :=
  (comment? (Text.trimStart line)).bind fun comment =>
    afterStart? "relay:".toList (Text.trimStart comment)

/-- A word cut at its first equals sign. -/
def keyValue? : List Char → Option (List Char × List Char)
  | [] => none
  | '=' :: value => some ([], value)
  | c :: rest => (keyValue? rest).map fun part => (c :: part.1, part.2)

/-- The keys and values that a line declares, in order. -/
def declared (line : List Char) : List (String × String) :=
  match declarations? line with
  | none => []
  | some declarations =>
      (Text.words declarations).filterMap fun word =>
        (keyValue? word).map fun part => (String.ofList part.1, String.ofList part.2)

end Modeline

/-- Is the line a modeline? -/
def isModeline (line : String) : Bool := (Modeline.declarations? line.toList).isSome

/-! ## Parsers -/

/-- Traits by the lower case of their names. -/
structure ModelineParser (ε : Type) where
  traits : KeyMap (ModelineTrait ε)

namespace ModelineParser

/-- The parser without traits. -/
def empty : ModelineParser ε := ⟨.empty⟩

instance : Inhabited (ModelineParser ε) := ⟨empty⟩

/-- The parser with one more trait.  It takes the place of a trait with the same name. -/
def addTrait (parser : ModelineParser ε) (modelineTrait : ModelineTrait ε) : ModelineParser ε :=
  ⟨parser.traits.insert (Text.toLower modelineTrait.name) modelineTrait⟩

/-- The trait with a name. -/
def find? (parser : ModelineParser ε) (name : String) : Option (ModelineTrait ε) :=
  parser.traits.find? (Text.toLower name)

/-- The customizers that a line declares. -/
def parseChars (parser : ModelineParser ε) (resource : Resource) (line : List Char) :
    List (Customizer ε) :=
  (Modeline.declared line).filterMap fun part =>
    (parser.find? part.1).map fun modelineTrait => modelineTrait.customizer resource part.2

/-- The customizers that a line declares. -/
def parseLine (parser : ModelineParser ε) (resource : Resource) (line : String) :
    List (Customizer ε) :=
  parser.parseChars resource line.toList

/-- The customizers that the lines of a source declare. -/
def parseSource (parser : ModelineParser ε) (resource : Resource) (source : String) :
    List (Customizer ε) :=
  (Text.lines source.toList).flatMap (parser.parseChars resource)

end ModelineParser

end MessageExchange
