import MessageExchange.Decimal.Integer

/-!
# Binary64 numbers

A `Binary64` is the 64 bits of a double precision number: a sign bit, eleven bits
of exponent and 52 bits of fraction.  It is kept as bits, and every operation is
exact arithmetic on the fields.

`decode` reads a finite pattern as a mantissa times a power of two.  Equality is
that of the numbers: a NaN equals nothing, not even itself, and the two zeros are
equal.  The order is that of the numbers too, with the infinities at its ends.  A
whole number becomes a double by rounding to the nearest one (`ofInt64`), and a
double becomes a word of 64 bits by leaving out its fraction (`toInt64`).
-/

namespace MessageExchange

/-- The 64 bits of a double precision number. -/
structure Binary64 where
  /-- The sign, the exponent and the fraction, the sign on top. -/
  bits : UInt64
deriving Repr

namespace Binary64

/-! ## Fields -/

/-- The sign bit. -/
def isNegative (x : Binary64) : Bool := x.bits.toNat >>> 63 == 1

/-- The eleven bits of the exponent. -/
def exponentField (x : Binary64) : Nat := x.bits.toNat >>> 52 % 2048

/-- The 52 bits of the fraction. -/
def fractionField (x : Binary64) : Nat := x.bits.toNat % (1 <<< 52)

/-! ## Values -/

/-- What a pattern stands for.  A finite pattern stands for
`mantissa * 2 ^ exponent`, with a minus sign if it is negative. -/
inductive Datum where
  | nan
  | infinite (negative : Bool)
  | finite (negative : Bool) (mantissa : Nat) (exponent : Int)
deriving Repr, DecidableEq

/-- What a pattern stands for.  A subnormal number, with an exponent field of zero, lacks the
leading bit. -/
def decode (x : Binary64) : Datum :=
  if x.exponentField = 2047 then
    if x.fractionField = 0 then .infinite x.isNegative else .nan
  else if x.exponentField = 0 then .finite x.isNegative x.fractionField (-1074)
  else .finite x.isNegative (1 <<< 52 + x.fractionField) (x.exponentField - 1075)

/-- Is the pattern not a number? -/
def isNaN (x : Binary64) : Bool := x.exponentField == 2047 && x.fractionField != 0

/-- Is the pattern one of the two zeros? -/
def isZero (x : Binary64) : Bool := x.exponentField == 0 && x.fractionField == 0

/-! ## Equality -/

/-- Equality of numbers. -/
def equal (x y : Binary64) : Bool :=
  !x.isNaN && !y.isNaN && (x.bits == y.bits || (x.isZero && y.isZero))

instance : BEq Binary64 := ⟨equal⟩

/-- A number equals itself exactly when it is one. -/
theorem beq_self (x : Binary64) : (x == x) = !x.isNaN := by
  change equal x x = _
  simp [equal]

theorem beq_comm (x y : Binary64) : (x == y) = (y == x) := by
  change equal x y = equal y x
  simp only [equal, Bool.and_comm (!x.isNaN), Bool.and_comm x.isZero]
  rw [Bool.beq_comm]

/-! ## Order -/

/-- A natural number with a sign. -/
def signed (negative : Bool) (n : Nat) : Int := if negative then -n else n

/-- Is the number below another one, or as great if `orEqual` says so?  A NaN is neither.  Finite
numbers are compared as multiples of the smaller of their two powers. -/
def Datum.below (orEqual : Bool) : Datum → Datum → Bool
  | .nan, _ => false
  | _, .nan => false
  | .infinite true, .infinite true => orEqual
  | .infinite false, .infinite false => orEqual
  | .infinite negative, _ => negative
  | _, .infinite negative => !negative
  | .finite negative mantissa exponent, .finite negative' mantissa' exponent' =>
      let unit := min exponent exponent'
      let units := signed negative (mantissa <<< (exponent - unit).toNat)
      let units' := signed negative' (mantissa' <<< (exponent' - unit).toNat)
      if orEqual then units ≤ units' else units < units'

/-- Is the number smaller than another one? -/
def less (x y : Binary64) : Bool := x.decode.below false y.decode

/-- Is the number at most another one? -/
def atMost (x y : Binary64) : Bool := x.decode.below true y.decode

/-! ## Whole numbers -/

/-- Is the pattern that of a number, and not an infinity? -/
def isFinite (x : Binary64) : Bool := x.exponentField != 2047

/-- Is there nothing after the point? -/
def Datum.isWhole : Datum → Bool
  | .nan => false
  | .infinite _ => false
  | .finite _ mantissa exponent => 0 ≤ exponent || mantissa % (1 <<< (-exponent).toNat) == 0

/-- Is the number a whole one? -/
def isWhole (x : Binary64) : Bool := x.decode.isWhole

/-- What stands before the point of a finite number. -/
def Datum.truncated : Datum → Int
  | .nan => 0
  | .infinite _ => 0
  | .finite negative mantissa exponent =>
      if 0 ≤ exponent then signed negative (mantissa <<< exponent.toNat)
      else signed negative (mantissa >>> (-exponent).toNat)

/-- The word of 64 bits nearest to what a datum has before the point.  A NaN gives zero. -/
def Datum.toInt64 : Datum → Int64
  | .nan => 0
  | .infinite negative => if negative then Int64.minValue else Int64.maxValue
  | .finite negative mantissa exponent =>
      let n := (Datum.finite negative mantissa exponent).truncated
      if n < Int64.minValue.toInt then Int64.minValue
      else if Int64.maxValue.toInt < n then Int64.maxValue
      else Int64.ofInt n

/-- A number as a word of 64 bits. -/
def toInt64 (x : Binary64) : Int64 := x.decode.toInt64

/-- The pattern of a whole number of 64 bits, rounded to the nearest pattern and between two to the
even one.  A mantissa that is rounded up to its next power of two carries into the exponent. -/
def ofInt64 (n : Int64) : Binary64 :=
  let magnitude := n.toInt.natAbs
  let sign := if n.toInt < 0 then 1 <<< 63 else 0
  if magnitude = 0 then ⟨0⟩
  else if magnitude.log2 ≤ 52 then
    ⟨UInt64.ofNat (sign + (magnitude.log2 + 1022) <<< 52 + magnitude <<< (52 - magnitude.log2))⟩
  else
    let drop := magnitude.log2 - 52
    let kept := magnitude >>> drop
    let rest := magnitude % (1 <<< drop)
    let half := 1 <<< (drop - 1)
    let rounded := if half < rest || (rest == half && kept % 2 == 1) then kept + 1 else kept
    ⟨UInt64.ofNat (sign + (magnitude.log2 + 1022) <<< 52 + rounded)⟩

end Binary64

end MessageExchange
