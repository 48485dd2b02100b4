import MessageExchange.Options.Json

/-!
# JSON objects of strings, as bytes

A second reader of the language of `object?`, for a text that comes as bytes.  The
bytes are never turned into a text as a whole.  All that has a meaning in JSON is
ASCII and is known by its byte.  Inside a string every other byte is copied,
whatever it is, and an escape adds the bytes of its character.  Only when the
string ends are its bytes checked to be the UTF-8 of a text.

A surrogate that an escape gives has no bytes of its own.  If it is the first half
of a pair the string waits for the second half, which has to follow at once.
-/

namespace MessageExchange.Json

/-- The character whose code point is a byte. -/
def byteChar (b : UInt8) : Char := Char.ofNat b.toNat

/-! ## Strings -/

/-- A string as far as it was read, with its bytes from the last one to the first. -/
inductive Scratch where
  | whole (bytes : List UInt8)
  /-- The first half of a surrogate pair waits for the second one. -/
  | half (bytes : List UInt8) (high : Nat)
deriving Repr, DecidableEq

namespace Scratch

/-- Adds a byte. -/
def byte? (b : UInt8) : Scratch → Option Scratch
  | whole bytes => some (whole (b :: bytes))
  | half _ _ => none

/-- Adds the bytes of a character. -/
def char? (c : Char) : Scratch → Option Scratch
  | whole bytes => some (whole ((String.utf8EncodeChar c).reverse ++ bytes))
  | half _ _ => none

/-- Adds a UTF-16 unit that an escape gave. -/
def unit? (n : Nat) : Scratch → Option Scratch
  | whole bytes =>
      if isHighSurrogate n then some (half bytes n)
      else if isLowSurrogate n then none
      else (whole bytes).char? (Char.ofNat n)
  | half bytes high => if isLowSurrogate n then (whole bytes).char? (pairChar high n) else none

/-- The text of a string that ends, if its bytes are the UTF-8 of one. -/
def text? : Scratch → Option String
  | whole bytes => String.fromUTF8? ⟨bytes.reverse.toArray⟩
  | half _ _ => none

end Scratch

/-! ## Tokens -/

mutual

/-- The tokens of bytes that start outside a string. -/
def byteTokens? : List UInt8 → Option (List Token)
  | [] => some []
  | 0x22 :: rest => byteStringTokens? (.whole []) rest
  | b :: rest =>
      if isSpace (byteChar b) then byteTokens? rest
      else do
        let token ← punctuation? (byteChar b)
        (byteTokens? rest).map (token :: ·)

/-- The tokens of bytes that start inside a string, of which `scratch` was read. -/
def byteStringTokens? (scratch : Scratch) : List UInt8 → Option (List Token)
  | [] => none
  | 0x22 :: rest => do
      let text ← scratch.text?
      (byteTokens? rest).map (.string text.toList :: ·)
  | 0x5C :: 0x75 :: a :: b :: c :: d :: rest => do
      let scratch ←
        (hexUnit? (byteChar a) (byteChar b) (byteChar c) (byteChar d)).bind scratch.unit?
      byteStringTokens? scratch rest
  | 0x5C :: letter :: rest => do
      let scratch ← (escaped? (byteChar letter)).bind scratch.char?
      byteStringTokens? scratch rest
  | b :: rest =>
      if b < 0x20 || b = 0x5C then none
      else do
        let scratch ← scratch.byte? b
        byteStringTokens? scratch rest

end

/-- The members of the object that bytes hold, in the order they stand in. -/
def objectOfBytes? (content : ByteArray) : Option (List (String × String)) :=
  (byteTokens? content.data.toList).bind members?

end MessageExchange.Json
