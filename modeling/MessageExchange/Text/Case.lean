import MessageExchange.Text.CaseTable

/-!
# Case mapping

Full case mapping of texts, with no locale.  A character may become several
characters, so the length of a text may change.

Upper case looks at each character alone.  Lower case does too, but for the
capital sigma.  At the end of a word it becomes the final sigma `ς`, elsewhere
`σ`.  A word ends at a sigma if, with the case-ignorable characters skipped on
both sides, a cased character comes before it and none comes after it.

Two keys name the same thing exactly when `toLower` makes them equal.
-/

namespace MessageExchange.Text

/-! ## One character -/

/-- The characters that a table of runs and a table of expansions map a character to. -/
def mapChar (runs : List CaseRun) (expansions : List (Nat × List Nat)) (c : Char) : List Char :=
  match CaseRun.image? runs c.toNat with
  | some n => [Char.ofNat n]
  | none =>
      match expansions.lookup c.toNat with
      | some ns => ns.map Char.ofNat
      | none => [c]

/-- The lower case of a character that is not at the end of a word. -/
def lowerChar (c : Char) : List Char := mapChar lowerRuns lowerExpansions c

/-- The upper case of a character. -/
def upperChar (c : Char) : List Char := mapChar upperRuns upperExpansions c

/-- The characters with an upper, a lower or a title case form, or that look like one of these. -/
def isCased (c : Char) : Bool := inRanges casedRanges c.toNat

/-- The characters that a capital sigma looks past. -/
def isCaseIgnorable (c : Char) : Bool := inRanges caseIgnorableRanges c.toNat

/-! ## The final sigma -/

/-- Is the first character that is not case-ignorable a cased one? -/
def startsCased (text : List Char) : Bool :=
  match text.dropWhile isCaseIgnorable with
  | [] => false
  | c :: _ => isCased c

/-- Does a word end at a letter that stands between two texts?  The text before it is given
from its end to its start. -/
def endsWord (before after : List Char) : Bool := startsCased before && !startsCased after

/-- The lower case of a capital sigma between two texts. -/
def lowerSigma (before after : List Char) : Char := if endsWord before after then 'ς' else 'σ'

/-! ## Texts -/

/-- The lower case of a text that stands after `before`, which is given from its end to its
start. -/
def lowerAfter (before : List Char) : List Char → List Char
  | [] => []
  | c :: rest =>
      (if c = 'Σ' then [lowerSigma before rest] else lowerChar c) ++ lowerAfter (c :: before) rest

/-- The lower case of a text. -/
def toLower (text : String) : String := String.ofList (lowerAfter [] text.toList)

/-- The upper case of a text. -/
def toUpper (text : String) : String := String.ofList (text.toList.flatMap upperChar)

@[simp] theorem lowerAfter_nil (before : List Char) : lowerAfter before [] = [] := rfl

theorem toList_toLower (text : String) : (toLower text).toList = lowerAfter [] text.toList := by
  simp [toLower]

theorem toList_toUpper (text : String) :
    (toUpper text).toList = text.toList.flatMap upperChar := by
  simp [toUpper]

end MessageExchange.Text
