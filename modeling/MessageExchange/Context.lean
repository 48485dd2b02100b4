import MessageExchange.Dump.Basic
import MessageExchange.Options.Basic
import MessageExchange.Registry

/-!
# Contexts

A context is what exchanges are created against: a registry of beans, options and
a type converter.

The beans are of four kinds: texts, whole numbers, formatters and dependency
strategies.  A strategy is told about dependencies.  What it does about one is an
*event* of a type `ε` that the user of the library chooses, so that notifying is
a value and can be spoken of.
-/

namespace MessageExchange

/-! ## Beans -/

/-- The kinds of beans. -/
inductive BeanKind where
  | text
  | integer
  /-- Formatters of exchanges. -/
  | formatter
  /-- Strategies for dependencies. -/
  | strategy
deriving Repr, DecidableEq

/-- What is told about every dependency that is declared.  Strategies are shared, and the identity
tells which one it is. -/
structure DependencyStrategy (ε : Type) where
  /-- Which strategy this is. -/
  identity : Nat
  /-- The event that a dependency gives. -/
  onDependency : String → ε

/-- The type of the beans of a kind. -/
def Bean (ε : Type) : BeanKind → Type
  | .text => String
  | .integer => Int64
  | .formatter => Formatter
  | .strategy => DependencyStrategy ε

/-! ## The type -/

/-- What exchanges are created against. -/
structure Context (ε : Type) where
  registry : Registry (Bean ε) := .empty
  options : Options := .empty
  /-- What values are converted with. -/
  converter : TypeConverter := .standard

namespace Context

variable {ε : Type}

instance : Inhabited (Context ε) := ⟨{}⟩

/-- The value of an option. -/
def option? (context : Context ε) (key : String) : Option String := context.options.find? key

/-- The context with a bean bound. -/
def bind (context : Context ε) (kind : BeanKind) (name : String) (bean : Bean ε kind) :
    Context ε :=
  { context with registry := context.registry.bind kind name bean }

/-- The context with the beans of a name unbound. -/
def unbind (context : Context ε) (name : String) : Context ε :=
  { context with registry := context.registry.unbind name }

end Context

end MessageExchange
