import MessageExchange.Error
import MessageExchange.Text.Lines

/-!
# Failures

A failure is a captured error that an exchange carries.  It is a handle: copies
of one failure are equal, and two failures are different even if they read the
same.  The `identity` says which one it is, and equality looks at nothing else.

A failure keeps the text of its error, the texts of the causes below it, and the
*backtrace* of the calls that led to it if one was captured.  The *stack trace* is
the failure's own line, the lines of the backtrace and a line for every cause,
which may itself hold line feeds.  It is written piece by piece through any writer
that may fail, so a writer's error ends the writing.  `Bounded.append` is a writer
that takes everything, and `Bounded.write` one that refuses to grow past a limit.
-/

namespace MessageExchange

/-- A captured error. -/
structure Failure where
  /-- Which failure this is. -/
  identity : Nat
  /-- The name of the type of the error. -/
  typeName : String
  /-- The text of the error. -/
  text : String
  /-- The texts of the causes, from the nearest on. -/
  causes : List String
  /-- The text of the captured backtrace.  Capturing is off unless it is asked for. -/
  backtrace : Option String := none
deriving Repr

namespace Failure

/-- Two failures are equal if they are the same one. -/
instance : BEq Failure := ⟨fun f g => f.identity == g.identity⟩

theorem beq_iff {f g : Failure} : (f == g) = true ↔ f.identity = g.identity := by
  change (f.identity == g.identity) = true ↔ _
  simp

/-! ## Making failures -/

/-- A failure with a text and no cause. -/
def ofMessage (identity : Nat) (text : String) (backtrace : Option String := none) : Failure :=
  { identity, typeName := "internals::failure::MessageError", text, causes := [], backtrace }

/-- A failure that captures an error of this library.  Its causes are the errors that the error
wraps. -/
def ofError (identity : Nat) (error : ExchangeError) (backtrace : Option String := none) :
    Failure :=
  { identity
    typeName := "internals::errors::RelayError"
    text := error.message
    causes := error.sources.map ExchangeError.message
    backtrace }

/-! ## Reading failures -/

/-- The text of the error, unless it is empty. -/
def message? (f : Failure) : Option String := if f.text = "" then none else some f.text

/-- The type name, followed by the text if there is one. -/
def display (f : Failure) : String :=
  match f.message? with
  | some message => f.typeName ++ ": " ++ message
  | none => f.typeName

/-- The lines of the backtrace, if one was captured. -/
def frames (f : Failure) : List String :=
  match f.backtrace with
  | some backtrace => (Text.lines backtrace.toList).map String.ofList
  | none => []

/-! ## The stack trace -/

/-- Writes the type name, and after a colon the text if there is one. -/
def writeDisplay {m : Type → Type} [Monad m] (write : String → m Unit) (f : Failure) : m Unit := do
  write f.typeName
  match f.message? with
  | some message => do
      write ": "
      write message
  | none => pure ()

/-- Writes the failure's own line, the lines of the backtrace and a line for every cause, piece by
piece.  A cause writes its own text, so `causes` holds the pieces in which each of them does. -/
def writeTrace {m : Type → Type} [Monad m] (write : String → m Unit) (f : Failure)
    (causes : List (List String)) : m Unit := do
  f.writeDisplay write
  write "\n"
  f.frames.forM fun line => do
    write "    "
    write line
    write "\n"
  causes.forM fun pieces => do
    write "Caused by: "
    pieces.forM write
    write "\n"

/-- Writes the stack trace, with the text of each cause in one piece. -/
def writeStackTrace {m : Type → Type} [Monad m] (write : String → m Unit) (f : Failure) :
    m Unit :=
  f.writeTrace write (f.causes.map fun cause => [cause])

/-- The whole stack trace. -/
def stackTrace (f : Failure) : String :=
  (f.writeStackTrace fun piece => (modify (· ++ piece) : StateM String Unit)).run "" |>.2

end Failure

/-! ## A writer with a limit -/

/-- A writer's refusal to take more. -/
inductive WriteError where
  /-- The text would exceed the limit. -/
  | full
deriving Repr, DecidableEq

/-- Writing that may fail.  What was written before an error stays written. -/
abbrev Bounded := ExceptT WriteError (StateM String)

/-- Appends a piece. -/
def Bounded.append (piece : String) : Bounded Unit := modify (· ++ piece)

/-- Appends a piece unless the whole would be longer than `limit` bytes of UTF-8. -/
def Bounded.write (limit : Nat) (piece : String) : Bounded Unit := do
  let written ← get
  if written.utf8ByteSize + piece.utf8ByteSize ≤ limit then set (written ++ piece)
  else throw .full

namespace Failure

/-- Writes the stack trace into an empty text with a limit.  Gives the outcome and what was
written. -/
def stackTraceWithin (limit : Nat) (f : Failure) : Except WriteError Unit × String :=
  (f.writeStackTrace (Bounded.write limit)).run.run ""

end Failure

end MessageExchange
