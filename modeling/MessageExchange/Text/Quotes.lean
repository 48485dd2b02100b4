/-!
# Escaped quotes

Every double quote of a text gets a backslash before it, unless the character
before it is a backslash already.  The rule looks one character back and does
not pair backslashes, so a quote after two backslashes is left as it is.
-/

namespace MessageExchange.Text

/-- Escapes the quotes of a text that stands after the character `previous`. -/
def escapeQuotesAfter (previous : Option Char) : List Char → List Char
  | [] => []
  | c :: rest =>
      if c = '"' ∧ previous ≠ some '\\' then '\\' :: c :: escapeQuotesAfter (some c) rest
      else c :: escapeQuotesAfter (some c) rest

/-- Puts a backslash before every double quote that has none directly before it. -/
def escapeQuotes (text : String) : String :=
  String.ofList (escapeQuotesAfter none text.toList)

@[simp] theorem escapeQuotesAfter_nil (previous : Option Char) :
    escapeQuotesAfter previous [] = [] := rfl

theorem toList_escapeQuotes (text : String) :
    (escapeQuotes text).toList = escapeQuotesAfter none text.toList := by
  simp [escapeQuotes]

end MessageExchange.Text
