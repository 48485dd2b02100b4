/-!
# Errors

An operation on an exchange fails for one of three causes: a configuration that
cannot be used, an argument that cannot be used, or a value with no conversion to
the type that is asked for.  A failure while a pipeline runs wraps the cause in a
*runtime* error, any number of times.

`leaf` and `depth` take an error apart: the cause at the bottom and how often it
is wrapped.  `intoRuntime` wraps an error that is not wrapped yet, so it never
wraps twice.
-/

namespace MessageExchange

/-- Why an operation on an exchange failed. -/
inductive ExchangeError where
  /-- A configuration cannot be used. -/
  | invalidConfiguration (text : String)
  /-- An argument cannot be used. -/
  | illegalArgument (text : String)
  /-- Values of the type `source` do not convert to the type `target`. -/
  | noTypeConversion (source target : String)
  /-- An error that arose while a pipeline ran. -/
  | runtime (inner : ExchangeError)
deriving Repr, DecidableEq

namespace ExchangeError

/-- The text of an error. -/
def message : ExchangeError → String
  | invalidConfiguration text => "Invalid configuration: " ++ text
  | illegalArgument text => "Illegal argument: " ++ text
  | noTypeConversion source target => "No type conversion from " ++ source ++ " to " ++ target
  | runtime inner => "Runtime error: " ++ inner.message

/-- The error that this one wraps. -/
def source? : ExchangeError → Option ExchangeError
  | runtime inner => some inner
  | _ => none

/-- The errors below this one, from the one it wraps to the cause at the bottom. -/
def sources : ExchangeError → List ExchangeError
  | runtime inner => inner :: inner.sources
  | _ => []

/-- Wraps an error as a runtime error unless it is one already. -/
def intoRuntime : ExchangeError → ExchangeError
  | runtime inner => runtime inner
  | error => runtime error

/-- How often an error is wrapped. -/
def depth : ExchangeError → Nat
  | runtime inner => inner.depth + 1
  | _ => 0

/-- The cause at the bottom. -/
def leaf : ExchangeError → ExchangeError
  | runtime inner => inner.leaf
  | error => error

/-- An error wrapped a number of times. -/
def wrap : Nat → ExchangeError → ExchangeError
  | 0, error => error
  | n + 1, error => runtime (wrap n error)

theorem wrap_depth_leaf : ∀ error : ExchangeError, wrap error.depth error.leaf = error
  | invalidConfiguration _ => rfl
  | illegalArgument _ => rfl
  | noTypeConversion _ _ => rfl
  | runtime inner => congrArg runtime (wrap_depth_leaf inner)

end ExchangeError

end MessageExchange
