import MessageExchange.Context
import MessageExchange.Options.Integer

/-!
# Providing a formatter

The formatter to use in a context.  One that is given counts first, then the only
one that is bound in the registry.  Otherwise a new formatter is made.  It shows
the identifier and the headers besides what is shown anyway, one section to a
line, in the fixed style.  An option of the context limits how much of the body
it shows.

The option is read only if a formatter has to be made, so a malformed one fails
the call in that case alone.
-/

namespace MessageExchange

/-- The settings of a new formatter, before the limit of the body is read. -/
def providedSettings : DumpSettings :=
  { showId := true, showHeaders := true, multiline := true, style := .fixed }

/-- Settings with the limit of the body replaced if there is another. -/
def DumpSettings.limit (settings : DumpSettings) (maxChars : Option Int32) : DumpSettings :=
  { settings with maxChars := maxChars.getD settings.maxChars }

namespace Context

variable {ε : Type}

/-- The settings of a formatter that is made in a context. -/
def dumpSettings (context : Context ε) (env : Environment) : Except ExchangeError DumpSettings :=
  match context.options.parseInteger env (context.option? bodyMaxCharsKey) with
  | .ok maxChars => .ok (providedSettings.limit maxChars)
  | .error error => .error error.intoRuntime

/-- The formatter to use in a context: `existing`, or the only one that is bound, or a new one of
the identity `fresh`. -/
def provideFormatter (context : Context ε) (env : Environment) (existing : Option Formatter)
    (fresh : Nat) : Except ExchangeError Formatter :=
  match existing with
  | some formatter => .ok formatter
  | none =>
      match context.registry.findSingle? .formatter with
      | some formatter => .ok formatter
      | none => (context.dumpSettings env).map fun settings => settings.toFormatter fresh

end Context

end MessageExchange
