import MessageExchange.Binary64.Text
import MessageExchange.Failure
import MessageExchange.Time.Rfc3339

/-!
# Values

The body, the headers and the properties of an exchange hold values of eight
kinds.  Two values are equal only if they are of one kind.  Within a kind the
kind's own equality counts, so a number that is not a number differs from itself,
the two zeros are equal, and failures are compared by identity.
-/

namespace MessageExchange

open MessageExchange.Time (Instant)

/-- A value of a body, a header or a property. -/
inductive Value where
  | null
  | bool (b : Bool)
  /-- A whole number of 64 bits. -/
  | int (n : Int64)
  /-- A double precision number. -/
  | double (x : Binary64)
  | text (s : String)
  | bytes (b : ByteArray)
  /-- A point in time. -/
  | instant (t : Instant)
  /-- A captured error. -/
  | failure (f : Failure)

namespace Value

instance : Inhabited Value := ⟨null⟩

/-! ## Equality -/

/-- Equality of values. -/
def equal : Value → Value → Bool
  | null, null => true
  | bool a, bool b => a == b
  | int m, int n => m == n
  | double x, double y => x == y
  | text s, text t => s == t
  | bytes a, bytes b => a == b
  | instant s, instant t => decide (s = t)
  | failure f, failure g => f == g
  | _, _ => false

instance : BEq Value := ⟨equal⟩

/-! ## Kinds -/

/-- Is there no value? -/
def isNull : Value → Bool
  | null => true
  | _ => false

/-- The name of a value's type, as it is shown.  A failure shows the type of its error. -/
def typeName : Value → String
  | null => "null"
  | bool _ => "bool"
  | int _ => "i64"
  | double _ => "f64"
  | text _ => "String"
  | bytes _ => "Bytes"
  | instant _ => "DateTime<Utc>"
  | failure f => f.typeName

@[simp] theorem isNull_null : null.isNull = true := rfl

theorem isNull_iff {v : Value} : v.isNull = true ↔ v = null := by
  cases v <;> simp [isNull]

/-! ## Making values -/

/-- A whole number of 32 bits as a value. -/
def ofInt32 (n : Int32) : Value := int n.toInt64

/-- A value that may be absent, as a value. -/
def ofOption (v : Option Value) : Value := v.getD null

end Value

end MessageExchange
