import MessageExchange.Binary64.Basic
import MessageExchange.Decimal.Positional

/-!
# The text of a binary64 number

A finite number is written as the shortest decimal that reads back to it.

The reals that read back to a number form an interval around it.  Each end lies
halfway to a neighbour, and the ends belong to the interval exactly when the
mantissa is even.  Below a power of two the neighbour is at half the distance.
`Span` holds the number and the two ends over one denominator.

A *grid* is the set of multiples of a power of ten.  If any point of a grid lies
in the interval, so does one of the two points next to the number.  So the search
goes from coarse grids to fine ones and tests two points on each.  The first hit
is the decimal with the fewest digits.  Of two hits the nearer wins, and of two
equally near the upper one.

`text` uses no exponent at any magnitude.  `detailedText` keeps a point in every
finite number and turns to an exponent for very large and very small ones.
-/

namespace MessageExchange.Binary64

open MessageExchange.Decimal (Scaled)

/-! ## The interval of a number -/

/-- A positive number and the ends of the interval that reads back to it, each as a
numerator over one denominator. -/
structure Span where
  low : Nat
  value : Nat
  high : Nat
  denominator : Nat
  /-- Whether the ends read back to the number too. -/
  closed : Bool
deriving Repr, DecidableEq

/-- The interval that reads back to `mantissa * 2 ^ exponent`.  A quarter of the last bit is the
unit. -/
def span (mantissa : Nat) (exponent : Int) : Span :=
  let below := if mantissa = 1 <<< 52 ∧ -1074 < exponent then 1 else 2
  let scale := 1 <<< (exponent - 2).toNat
  { low := (4 * mantissa - below) * scale
    value := 4 * mantissa * scale
    high := (4 * mantissa + 2) * scale
    denominator := 1 <<< (2 - exponent).toNat
    closed := mantissa % 2 == 0 }

namespace Span

/-! ## Points of a grid -/

/-- A point of a grid over the denominator of the span, with the power of ten on the side where
it is whole.  The first component belongs to the point, the second scales the ends. -/
def scales (s : Span) (power : Int) : Nat × Nat :=
  (s.denominator * Nat.pow 10 power.toNat, Nat.pow 10 (-power).toNat)

/-- Does the point `n * 10 ^ power` read back to the number? -/
def holds (s : Span) (power : Int) (n : Nat) : Bool :=
  let (unit, scale) := s.scales power
  let point := n * unit
  if s.closed then s.low * scale ≤ point && point ≤ s.high * scale
  else s.low * scale < point && point < s.high * scale

/-- The last point of a grid that is not above the number. -/
def floor (s : Span) (power : Int) : Nat :=
  let (unit, scale) := s.scales power
  s.value * scale / unit

/-- Is the point after `n` at least as near to the number as `n` itself? -/
def prefersNext (s : Span) (power : Int) (n : Nat) : Bool :=
  let (unit, scale) := s.scales power
  2 * (s.value * scale) ≥ (2 * n + 1) * unit

/-- The point of a grid that reads back to the number, the nearer one if there are two. -/
def pointOn? (s : Span) (power : Int) : Option Nat :=
  let n := s.floor power
  match s.holds power n, s.holds power (n + 1) with
  | true, true => some (if s.prefersNext power n then n + 1 else n)
  | true, false => some n
  | false, true => some (n + 1)
  | false, false => none

/-- The first hit on the grids of the powers `power`, `power - 1`, and so on, at most `steps`
grids above the one that is taken for exact. -/
def firstHit (s : Span) : Nat → Int → Scaled
  | 0, power => ⟨s.floor power, power⟩
  | steps + 1, power =>
      match s.pointOn? power with
      | some n => ⟨n, power⟩
      | none => s.firstHit steps (power - 1)

/-- The shortest decimal that reads back to the number.  The search starts at a power of ten above
the number.  It ends at the latest where the number itself is on the grid. -/
def shortest (s : Span) : Scaled :=
  let whole := s.value / s.denominator
  let start := if whole = 0 then 0 else (Decimal.ofNat whole).length
  s.firstHit (start + s.denominator.log2) start

end Span

/-! ## Texts -/

/-- The shortest decimal that reads back to `mantissa * 2 ^ exponent`. -/
def shortest (mantissa : Nat) (exponent : Int) : Scaled :=
  if mantissa = 0 then ⟨0, 0⟩ else (span mantissa exponent).shortest

/-- A text with a minus sign before it for a negative number. -/
def withSign (negative : Bool) (text : List Char) : List Char :=
  if negative then '-' :: text else text

/-- The text of a datum, with a way to write the magnitude of a finite one. -/
def Datum.write (magnitude : Scaled → List Char) : Datum → List Char
  | .nan => "NaN".toList
  | .infinite negative => withSign negative "inf".toList
  | .finite negative mantissa exponent =>
      withSign negative (magnitude (Binary64.shortest mantissa exponent))

/-- The shortest decimal that reads back, without an exponent. -/
def text (x : Binary64) : String := String.ofList (x.decode.write Scaled.positional)

/-- A magnitude with a point or an exponent.  From `10 ^ 16` on, and below `10 ^ -4`, it has an
exponent. -/
def detailedMagnitude (x : Scaled) : List Char :=
  let leading := x.exponent + (Decimal.ofNat x.coefficient).length
  if x.coefficient ≠ 0 ∧ (leading ≤ -4 ∨ 17 ≤ leading) then x.scientific else x.pointed

/-- The shortest decimal that reads back, always with a point or an exponent. -/
def detailedText (x : Binary64) : String := String.ofList (x.decode.write detailedMagnitude)

end MessageExchange.Binary64
