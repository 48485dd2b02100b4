import MessageExchange.Decimal.Integer

/-!
# Debug trees

A debug tree is the structure of a value as it is shown to a developer.  It is an
atom or a group of labelled trees between two brackets.  A group that does not
show everything ends in two dots.

A tree has two texts.  `line` has everything on one line with a comma between the
members of a group.  `pretty` gives every member lines of its own, four spaces to
the right of the brackets, with a comma after it.  A group without members is its
two brackets in both.
-/

namespace MessageExchange

mutual

/-- The structure of a value as it is shown. -/
inductive DebugTree where
  /-- A text that is shown as it is. -/
  | atom (text : String)
  /-- Members between brackets.  A spaced group has a space inside its brackets, and an open one
  does not show everything. -/
  | group (opening closing : String) (isSpaced isOpen : Bool) (members : DebugMembers)

/-- The members of a group, each with the text before it. -/
inductive DebugMembers where
  | nil
  /-- A member and the members after it. -/
  | cons (label : String) (tree : DebugTree) (rest : DebugMembers)

end

namespace DebugTree

/-! ## Making trees -/

/-- The members of a list of labels and trees. -/
def membersOf : List (String × DebugTree) → DebugMembers
  | [] => .nil
  | (label, tree) :: rest => .cons label tree (membersOf rest)

/-- A structure with fields. -/
def record (name : String) (fields : List (String × DebugTree)) : DebugTree :=
  group (name ++ " \x7b") "\x7d" true false
    (membersOf (fields.map fun field => (field.1 ++ ": ", field.2)))

/-- A structure that shows some of its fields. -/
def openRecord (name : String) (fields : List (String × DebugTree)) : DebugTree :=
  group (name ++ " \x7b") "\x7d" true true
    (membersOf (fields.map fun field => (field.1 ++ ": ", field.2)))

/-- A constructor and its arguments.  A tuple has no name. -/
def apply (name : String) (arguments : List DebugTree) : DebugTree :=
  group (name ++ "(") ")" false false (membersOf (arguments.map fun tree => ("", tree)))

/-- A list. -/
def list (elements : List DebugTree) : DebugTree :=
  group "[" "]" false false (membersOf (elements.map fun tree => ("", tree)))

/-- The text of a character within quotes. -/
def quotedChar (c : Char) : List Char :=
  if c = '"' then ['\\', '"']
  else if c = '\\' then ['\\', '\\']
  else if c = '\n' then ['\\', 'n']
  else if c = '\r' then ['\\', 'r']
  else if c = '\t' then ['\\', 't']
  else if c = '\x00' then ['\\', '0']
  else if c.toNat < 0x20 ∨ c.toNat = 0x7F then
    '\\' :: 'u' :: '\x7b' :: (Nat.toDigits 16 c.toNat ++ ['\x7d'])
  else [c]

/-- A text within quotes.  Quotes, backslashes and the control characters of ASCII are escaped. -/
def quoted (text : String) : String :=
  String.ofList ('"' :: (text.toList.flatMap quotedChar ++ ['"']))

/-- A map from texts. -/
def map (entries : List (String × DebugTree)) : DebugTree :=
  group "\x7b" "\x7d" false false
    (membersOf (entries.map fun entry => (quoted entry.1 ++ ": ", entry.2)))

/-- A text. -/
def text (s : String) : DebugTree := atom (quoted s)

/-- A whole number. -/
def int (n : Int) : DebugTree := atom (String.ofList (Decimal.ofInt n))

/-- Something that may be absent. -/
def option : Option DebugTree → DebugTree
  | none => atom "None"
  | some tree => apply "Some" [tree]

end DebugTree

/-! ## One line -/

mutual

/-- The text of a tree on one line. -/
def DebugTree.line : DebugTree → String
  | .atom text => text
  | .group opening closing isSpaced isOpen members =>
      let parts := members.lineParts ++ (if isOpen then [".."] else [])
      if parts.isEmpty then opening ++ closing
      else
        let space := if isSpaced then " " else ""
        opening ++ space ++ ", ".intercalate parts ++ space ++ closing

/-- The texts of the members of a group on one line. -/
def DebugMembers.lineParts : DebugMembers → List String
  | .nil => []
  | .cons label tree rest => (label ++ tree.line) :: rest.lineParts

end

/-! ## Many lines -/

/-- The lines of a member: the label before the first line and a comma after the last one. -/
def memberLines (label : String) : List String → List String
  | [] => []
  | [only] => [label ++ only ++ ","]
  | first :: rest => (label ++ first) :: (rest.dropLast ++ (rest.getLast?.map (· ++ ",")).toList)

mutual

/-- The lines of a tree. -/
def DebugTree.prettyLines : DebugTree → List String
  | .atom text => [text]
  | .group opening closing _ isOpen members =>
      let inner := members.prettyLines ++ (if isOpen then [".."] else [])
      if inner.isEmpty then [opening ++ closing]
      else opening :: (inner.map ("    " ++ ·) ++ [closing])

/-- The lines of the members of a group. -/
def DebugMembers.prettyLines : DebugMembers → List String
  | .nil => []
  | .cons label tree rest => memberLines label tree.prettyLines ++ rest.prettyLines

end

/-- The text of a tree on many lines. -/
def DebugTree.pretty (tree : DebugTree) : String := "\n".intercalate tree.prettyLines

end MessageExchange
