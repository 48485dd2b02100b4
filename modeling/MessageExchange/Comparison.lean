import MessageExchange.Conversion

/-!
# Comparing values

Whether the text of one value starts or ends with the text of another.  A value
may be absent, and null counts as absent.  Two absent values match, and an absent
value matches no other.  A value that does not convert to text matches nothing.
-/

namespace MessageExchange

/-- A value that may be absent, with null as absent. -/
def present? (value : Option Value) : Option Value := value.filter fun v => !v.isNull

@[simp] theorem present?_none : present? none = none := rfl

@[simp] theorem present?_null : present? (some .null) = none := rfl

/-- Applies a test to the texts of two values. -/
def compareTexts (converter : TypeConverter) (test : List Char → List Char → Bool)
    (left right : Option Value) : Bool :=
  match present? left, present? right with
  | none, none => true
  | some l, some r =>
      match converter.toText l, converter.toText r with
      | some s, some t => test s.toList t.toList
      | _, _ => false
  | _, _ => false

/-- Does the text of `left` start with the text of `right`? -/
def startsWith (converter : TypeConverter) (left right : Option Value) : Bool :=
  compareTexts converter (fun text start => start.isPrefixOf text) left right

/-- Does the text of `left` end with the text of `right`? -/
def endsWith (converter : TypeConverter) (left right : Option Value) : Bool :=
  compareTexts converter (fun text ending => ending.isSuffixOf text) left right

end MessageExchange
