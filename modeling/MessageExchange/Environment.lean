import MessageExchange.KeyMap
import MessageExchange.Text.Case

/-!
# Environment variables

A variable has bytes for its value, which need not be the UTF-8 of a text.  A
variable whose bytes are no text counts as not set when it is read.

`lookup?` finds a variable by a name in any case.  It turns the name to upper
case.  If that variable cannot be read it turns the dashes into underscores and
tries once more, so `my-var` finds `MY_VAR`.
-/

namespace MessageExchange

/-- The variables that are set, by name. -/
structure Environment where
  /-- The bytes of each variable. -/
  values : KeyMap ByteArray

namespace Environment

/-- The environment without variables. -/
def empty : Environment := ⟨.empty⟩

instance : Inhabited Environment := ⟨empty⟩

/-- The environment with a variable set. -/
def set (env : Environment) (name : String) (value : ByteArray) : Environment :=
  ⟨env.values.insert name value⟩

/-- The environment without a variable. -/
def unset (env : Environment) (name : String) : Environment := ⟨env.values.erase name⟩

/-- Can a variable have the name?  It is not empty and holds neither an equals sign nor NUL. -/
def isName (name : String) : Bool :=
  !name.isEmpty && name.toList.all fun c => c ≠ '=' && c ≠ '\x00'

/-- The value of exactly the variable `name`, if it is set and a text. -/
def read? (env : Environment) (name : String) : Option String :=
  if isName name then (env.values.find? name).bind String.fromUTF8? else none

/-- A name with underscores for its dashes. -/
def undashed (name : String) : String :=
  String.ofList (name.toList.map fun c => if c = '-' then '_' else c)

/-- The value of the variable that a name in any case stands for. -/
def lookup? (env : Environment) (name : String) : Option String :=
  let exact := Text.toUpper name
  (env.read? exact).or (if undashed exact = exact then none else env.read? (undashed exact))

end Environment

end MessageExchange
