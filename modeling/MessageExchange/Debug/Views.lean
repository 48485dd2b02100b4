import MessageExchange.Context
import MessageExchange.Debug.Tree

/-!
# Debug views

How values, exchanges and contexts are shown to a developer.  A registry shows
how many beans it holds and not which.  A context shows its registry and its
options, and an exchange all but the context it was created against.
-/

namespace MessageExchange

/-! ## Values -/

/-- A failure shows the type and the message of its error. -/
def Failure.debugTree (f : Failure) : DebugTree :=
  .record "Failure"
    [("type_name", .text f.typeName), ("message", .option (f.message?.map DebugTree.text))]

/-- A value shows its kind and what it holds. -/
def Value.debugTree : Value → DebugTree
  | null => .atom "Null"
  | bool b => .apply "Bool" [.atom (if b then "true" else "false")]
  | int n => .apply "Int" [.int n.toInt]
  | double x => .apply "Double" [.atom x.detailedText]
  | text s => .apply "Text" [.text s]
  | bytes b => .apply "Bytes" [.list (b.data.toList.map fun byte => .int byte.toNat)]
  | instant t => .apply "Timestamp" [.atom t.exactText]
  | failure f => .apply "Failure" [f.debugTree]

/-! ## Exchanges -/

/-- Headers show the key, the spelling and the value of each. -/
def Headers.debugTree (headers : Headers) : DebugTree :=
  let entry := fun (e : String × String × Value) =>
    (e.1, DebugTree.apply "" [.text e.2.1, e.2.2.debugTree])
  .record "Headers" [("entries", .map (headers.entries.toList.map entry))]

/-- A message shows its body and its headers. -/
def Message.debugTree (message : Message) : DebugTree :=
  .record "Message"
    [("body", message.body.debugTree), ("headers", message.headers.debugTree)]

/-- An exchange shows what it holds. -/
def Exchange.debugTree (x : Exchange) : DebugTree :=
  .openRecord "Exchange"
    [("id", .atom x.id.text),
     ("message", x.message.debugTree),
     ("properties", .map (x.properties.toList.map fun e => (e.1, e.2.debugTree))),
     ("exception", .option (x.exception.map Failure.debugTree)),
     ("created", .atom x.created.exactText)]

/-! ## Contexts -/

/-- A registry shows the number of its beans. -/
def Registry.debugTree {κ : Type} {β : κ → Type} (registry : Registry β) : DebugTree :=
  .record "Registry" [("beans", .int registry.size)]

/-- Options show every key and its text. -/
def Options.debugTree (options : Options) : DebugTree :=
  .record "GlobalOptions"
    [("options", .map (options.toList.map fun e => (e.1, DebugTree.text e.2)))]

/-- A context shows its registry and its options. -/
def Context.debugTree {ε : Type} (context : Context ε) : DebugTree :=
  .openRecord "RelayContext"
    [("registry", context.registry.debugTree),
     ("global_options", Options.debugTree context.options)]

end MessageExchange
