/-!
# Exchange identifiers

An exchange is told apart by a random identifier of 128 bits.  Four bits say that
it is of version 4 and two bits say which layout it has, so 122 bits are random.
It is written as 32 hexadecimal digits in groups of 8, 4, 4, 4 and 12.
-/

namespace MessageExchange

/-- The identifier of an exchange. -/
structure ExchangeId where
  bits : BitVec 128
deriving DecidableEq

namespace ExchangeId

/-- The identifier that keeps the random bits outside the version and the layout. -/
def ofRandom (random : BitVec 128) : ExchangeId :=
  let version : BitVec 128 := 0xF <<< 76
  let layout : BitVec 128 := 0x3 <<< 62
  ⟨(random &&& ~~~(version ||| layout)) ||| (0x4 <<< 76) ||| (0x2 <<< 62)⟩

/-- The version that the identifier states. -/
def version (id : ExchangeId) : Nat := id.bits.toNat >>> 76 % 16

/-- Cuts a text into groups of given lengths. -/
def groups : List Nat → List Char → List (List Char)
  | [], _ => []
  | length :: lengths, text => text.take length :: groups lengths (text.drop length)

/-- The identifier in hexadecimal, in five groups. -/
def text (id : ExchangeId) : String :=
  let digits := (Nat.toDigits 16 id.bits.toNat).leftpad 32 '0'
  String.ofList (['-'].intercalate (groups [8, 4, 4, 4, 12] digits))

end ExchangeId

end MessageExchange
