/-!
# JSON objects of strings

A strict reader for JSON texts that hold one object whose values are strings.

Reading has two steps.  `tokens?` cuts the text into braces, colons, commas and
strings.  White space between tokens is a space, a tab, a line feed or a carriage
return.  `members?` then checks that the tokens form one object and lists its
members in the order they stand in.

Inside a string a character stands for itself, unless it is a quote, a backslash
or below U+0020.  An escape stands for a character or for one UTF-16 unit.  Units
are joined to characters when the string ends, and a surrogate without its
partner is refused.

Both steps recurse on the structure of their input.
-/

namespace MessageExchange.Json

/-! ## Strings -/

/-- A piece of a string: a character, or a UTF-16 unit that an escape gave in hexadecimal. -/
inductive Piece where
  | char (c : Char)
  /-- A UTF-16 unit. -/
  | unit (n : Nat)
deriving Repr, DecidableEq

/-- Is the unit the first half of a surrogate pair? -/
def isHighSurrogate (n : Nat) : Bool := 0xD800 ≤ n && n < 0xDC00

/-- Is the unit the second half of a surrogate pair? -/
def isLowSurrogate (n : Nat) : Bool := 0xDC00 ≤ n && n < 0xE000

/-- The character of a surrogate pair. -/
def pairChar (high low : Nat) : Char :=
  Char.ofNat (0x10000 + (high - 0xD800) * 0x400 + (low - 0xDC00))

/-- The text of a list of pieces, if every surrogate has its partner. -/
def Piece.join? : List Piece → Option (List Char)
  | [] => some []
  | .char c :: rest => (join? rest).map (c :: ·)
  | .unit high :: .unit low :: rest =>
      if isHighSurrogate high then
        if isLowSurrogate low then (join? rest).map (pairChar high low :: ·) else none
      else if isLowSurrogate high then none
      else (join? (.unit low :: rest)).map (Char.ofNat high :: ·)
  | .unit n :: rest =>
      if isHighSurrogate n || isLowSurrogate n then none
      else (join? rest).map (Char.ofNat n :: ·)

/-- The character that an escape of one letter stands for. -/
def escaped? : Char → Option Char
  | '"' => some '"'
  | '\\' => some '\\'
  | '/' => some '/'
  | 'b' => some '\x08'
  | 'f' => some '\x0c'
  | 'n' => some '\n'
  | 'r' => some '\r'
  | 't' => some '\t'
  | _ => none

/-- The value of a hexadecimal digit in either case. -/
def hexDigit? (c : Char) : Option Nat :=
  let n := c.toNat
  if 0x30 ≤ n && n ≤ 0x39 then some (n - 0x30)
  else if 0x41 ≤ n && n ≤ 0x46 then some (n - 0x41 + 10)
  else if 0x61 ≤ n && n ≤ 0x66 then some (n - 0x61 + 10)
  else none

/-- The value of four hexadecimal digits. -/
def hexUnit? (a b c d : Char) : Option Nat := do
  let a ← hexDigit? a
  let b ← hexDigit? b
  let c ← hexDigit? c
  let d ← hexDigit? d
  some (((a * 16 + b) * 16 + c) * 16 + d)

/-! ## Tokens -/

/-- A token of a JSON text of the kind that is read here. -/
inductive Token where
  /-- The start of an object. -/
  | openBrace
  /-- The end of an object. -/
  | closeBrace
  /-- What separates a key from its value. -/
  | colon
  /-- What separates members. -/
  | comma
  /-- A string, decoded. -/
  | string (text : List Char)
deriving Repr, DecidableEq

/-- The white space between tokens. -/
def isSpace (c : Char) : Bool := c = ' ' || c = '\t' || c = '\n' || c = '\r'

/-- The token that is one character, if the character is one. -/
def punctuation? : Char → Option Token
  | '\x7b' => some .openBrace
  | '\x7d' => some .closeBrace
  | ':' => some .colon
  | ',' => some .comma
  | _ => none

mutual

/-- The tokens of a text that starts outside a string. -/
def tokens? : List Char → Option (List Token)
  | [] => some []
  | '"' :: rest => stringTokens? [] rest
  | c :: rest =>
      if isSpace c then tokens? rest
      else do
        let token ← punctuation? c
        (tokens? rest).map (token :: ·)

/-- The tokens of a text that starts inside a string, after the pieces `before`, the last one
first. -/
def stringTokens? (before : List Piece) : List Char → Option (List Token)
  | [] => none
  | '"' :: rest => do
      let text ← Piece.join? before.reverse
      (tokens? rest).map (.string text :: ·)
  | '\\' :: 'u' :: a :: b :: c :: d :: rest => do
      let n ← hexUnit? a b c d
      stringTokens? (.unit n :: before) rest
  | '\\' :: letter :: rest => do
      let c ← escaped? letter
      stringTokens? (.char c :: before) rest
  | c :: rest => if c.toNat < 0x20 || c = '\\' then none else stringTokens? (.char c :: before) rest

end

/-! ## Objects -/

/-- The members of an object after its opening brace, one at least. -/
def membersRest? : List Token → Option (List (String × String))
  | [.string key, .colon, .string value, .closeBrace] =>
      some [(String.ofList key, String.ofList value)]
  | .string key :: .colon :: .string value :: .comma :: rest =>
      (membersRest? rest).map ((String.ofList key, String.ofList value) :: ·)
  | _ => none

/-- The members of an object, if the tokens form one. -/
def members? : List Token → Option (List (String × String))
  | [.openBrace, .closeBrace] => some []
  | .openBrace :: rest => membersRest? rest
  | _ => none

/-- The members of the object that a text holds, in the order they stand in. -/
def object? (text : String) : Option (List (String × String)) :=
  (tokens? text.toList).bind members?

end MessageExchange.Json
