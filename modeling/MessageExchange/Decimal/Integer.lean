/-!
# Whole numbers in decimal

A whole number is written with the fewest digits, after a minus sign if it is
negative.  It is read from an optional sign, which may be a plus sign, and one or
more ASCII digits.  Leading zeros are allowed and nothing else is.

Reading has no bound of its own.  `toInt64?` and `toInt32?` keep the numbers that
fit a word of 64 or 32 bits and refuse the others.

`readInt?_ofInt` says that reading undoes writing.
-/

namespace MessageExchange.Decimal

/-! ## Writing -/

/-- The decimal digits of a natural number, without leading zeros. -/
def ofNat (n : Nat) : List Char := Nat.toDigits 10 n

/-- A whole number in decimal. -/
def ofInt : Int → List Char
  | .ofNat n => ofNat n
  | .negSucc n => '-' :: ofNat (n + 1)

/-- The digits of a natural number with zeros put before them up to a width. -/
def padded (width n : Nat) : List Char := (ofNat n).leftpad width '0'

/-! ## Reading -/

/-- The number that a list of one or more ASCII digits stands for. -/
def readNat? (digits : List Char) : Option Nat :=
  if digits ≠ [] ∧ digits.all Char.isDigit then some (Nat.ofDigitChars 10 digits 0) else none

/-- The number that an optional sign and one or more ASCII digits stand for. -/
def readInt? : List Char → Option Int
  | '-' :: digits => (readNat? digits).map fun n => -(n : Int)
  | '+' :: digits => (readNat? digits).map Int.ofNat
  | digits => (readNat? digits).map Int.ofNat

/-! ## Words -/

/-- A number as a word of 64 bits, if it fits. -/
def toInt64? (n : Int) : Option Int64 :=
  if Int64.minValue.toInt ≤ n ∧ n ≤ Int64.maxValue.toInt then some (Int64.ofInt n) else none

/-- A number as a word of 32 bits, if it fits. -/
def toInt32? (n : Int) : Option Int32 :=
  if Int32.minValue.toInt ≤ n ∧ n ≤ Int32.maxValue.toInt then some (Int32.ofInt n) else none

/-! ## Digits -/

theorem ofNat_of_lt {n : Nat} (h : n < 10) : ofNat n = [n.digitChar] :=
  Nat.toDigits_of_lt_base h

theorem ofNat_of_le {n : Nat} (h : 10 ≤ n) :
    ofNat n = ofNat (n / 10) ++ [(n % 10).digitChar] :=
  Nat.toDigits_of_base_le (by decide) h

theorem ofNat_ne_nil (n : Nat) : ofNat n ≠ [] := by
  simp [ofNat]

theorem isDigit_of_mem_ofNat {n : Nat} {c : Char} (h : c ∈ ofNat n) : c.isDigit = true :=
  Nat.isDigit_of_mem_toDigits (by decide) (by decide) h

theorem minus_notMem_ofNat (n : Nat) : '-' ∉ ofNat n := fun h =>
  absurd (isDigit_of_mem_ofNat h) (by decide)

/-! ## Reading undoes writing -/

@[simp] theorem readNat?_ofNat (n : Nat) : readNat? (ofNat n) = some n := by
  have hall : (ofNat n).all Char.isDigit = true :=
    List.all_eq_true.2 fun _ h => isDigit_of_mem_ofNat h
  simp only [readNat?, ofNat_ne_nil, hall, ne_eq, not_false_eq_true, and_self, if_true]
  simp [ofNat, Nat.ofDigitChars_toDigits]

/-- A text that starts with a digit is read without a sign. -/
theorem readInt?_of_isDigit {c : Char} {rest : List Char} (h : c.isDigit = true) :
    readInt? (c :: rest) = (readNat? (c :: rest)).map Int.ofNat := by
  unfold readInt?
  split
  · next heq => rw [(List.cons.inj heq).1] at h; exact absurd h (by decide)
  · next heq => rw [(List.cons.inj heq).1] at h; exact absurd h (by decide)
  · rfl

theorem readInt?_natDigits (n : Nat) : readInt? (ofNat n) = some (n : Int) := by
  cases hd : ofNat n with
  | nil => exact absurd hd (ofNat_ne_nil n)
  | cons c rest =>
      have hc : c.isDigit = true := isDigit_of_mem_ofNat (n := n) (by simp [hd])
      rw [readInt?_of_isDigit hc, ← hd, readNat?_ofNat]
      rfl

theorem readInt?_ofInt : ∀ n : Int, readInt? (ofInt n) = some n
  | .ofNat n => readInt?_natDigits n
  | .negSucc n => by simp [ofInt, readInt?, Int.negSucc_eq]

theorem ofNat_inj {m n : Nat} : ofNat m = ofNat n ↔ m = n := by
  constructor
  · intro h
    have hread := congrArg readNat? h
    rwa [readNat?_ofNat, readNat?_ofNat, Option.some_inj] at hread
  · exact congrArg ofNat

theorem ofInt_inj {m n : Int} : ofInt m = ofInt n ↔ m = n := by
  constructor
  · intro h
    have hread := congrArg readInt? h
    rwa [readInt?_ofInt, readInt?_ofInt, Option.some_inj] at hread
  · exact congrArg ofInt

end MessageExchange.Decimal
