import MessageExchange.Decimal.Integer

/-!
# Decimal fractions

A `Scaled` number is a whole coefficient times a power of ten.  It is written in
two ways.  The positional form uses no exponent at any magnitude and no point
unless there is a fraction.  The exponent form has one digit before the point and
the power of ten after the letter `e`.
-/

namespace MessageExchange.Decimal

/-- The number `coefficient * 10 ^ exponent`. -/
structure Scaled where
  coefficient : Nat
  /-- The power of ten. -/
  exponent : Int
deriving Repr, DecidableEq

namespace Scaled

/-- The digits before the point and the digits after it. -/
def parts (x : Scaled) : List Char × List Char :=
  let digits := ofNat x.coefficient
  let places := (-x.exponent).toNat
  let whole := digits ++ List.replicate x.exponent.toNat '0'
  let filled := whole.leftpad (places + 1) '0'
  (filled.take (filled.length - places), filled.drop (filled.length - places))

/-- The positional form, with a point only before a fraction. -/
def positional (x : Scaled) : List Char :=
  match x.parts with
  | (whole, []) => whole
  | (whole, fraction) => whole ++ '.' :: fraction

/-- The positional form, with at least one digit after the point. -/
def pointed (x : Scaled) : List Char :=
  match x.parts with
  | (whole, []) => whole ++ ['.', '0']
  | (whole, fraction) => whole ++ '.' :: fraction

/-- The form with one digit before the point and a power of ten. -/
def scientific (x : Scaled) : List Char :=
  let digits := ofNat x.coefficient
  let mantissa :=
    match digits with
    | [] => []
    | [d] => [d]
    | d :: rest => d :: '.' :: rest
  mantissa ++ 'e' :: ofInt (x.exponent + (digits.length - 1 : Nat))

end Scaled

end MessageExchange.Decimal
