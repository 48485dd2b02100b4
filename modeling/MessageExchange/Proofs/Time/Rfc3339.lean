import MessageExchange.Time.Rfc3339
import MessageExchange.Proofs.Decimal.Places

/-!
# Taking fields off a text

The fields of a date and time text are read one after the other.  A number of
fixed width is read off what follows it (`takeDigits?_places`), and so are the
character between two numbers (`takeOneOf?_cons`) and a fraction of one to nine
places (`takeFraction?_places`).

A text that starts with a sign has no fields (`read?_sign`).
-/

namespace MessageExchange.Time

open Decimal (places)

theorem takeDigits?_append {count : Nat} {digits : List Char} (h : digits.length = count)
    (rest : List Char) :
    takeDigits? count (digits ++ rest) = (Decimal.readNat? digits).map fun n => (n, rest) := by
  subst h
  simp [takeDigits?]

theorem takeDigits?_places {width n : Nat} (hwidth : 0 < width) (h : n < 10 ^ width)
    (rest : List Char) : takeDigits? width (places width n ++ rest) = some (n, rest) := by
  rw [takeDigits?_append (Decimal.length_places width n), Decimal.readNat?_places hwidth h]
  rfl

theorem takeDigits?_of_not_isDigit {c : Char} (h : c.isDigit = false) (count : Nat)
    (rest : List Char) : takeDigits? (count + 1) (c :: rest) = none := by
  have hread : Decimal.readNat? (c :: rest.take count) = none := by
    simp [Decimal.readNat?, h]
  simp [takeDigits?, hread]

theorem takeOneOf?_cons {c : Char} {allowed : List Char} (h : c ∈ allowed) (rest : List Char) :
    takeOneOf? allowed (c :: rest) = some (c, rest) :=
  if_pos h

/-- The places after a point count from a hundred million nanoseconds down. -/
theorem nanosOfDigits_places {width n : Nat} (hwidth : 1 ≤ width ∧ width ≤ 9)
    (h : n < 10 ^ width) : nanosOfDigits (places width n) = n * 10 ^ (9 - width) := by
  have hlength := Decimal.length_places width n
  have htake : (places width n).take 9 = places width n :=
    List.take_of_length_le (by rw [hlength]; exact hwidth.2)
  rw [nanosOfDigits, htake, List.rightpad, hlength, Nat.ofDigitChars_append,
    Decimal.ofDigitChars_places hwidth.1 h, Nat.ofDigitChars_replicate_zero, Nat.mul_comm]

/-- A fraction is all the digits after a point. -/
theorem takeFraction?_digits {digits : List Char} (hne : digits ≠ [])
    (hdigits : ∀ d ∈ digits, d.isDigit = true) {c : Char} (hc : c.isDigit = false)
    (rest : List Char) :
    takeFraction? ('.' :: (digits ++ c :: rest)) = some (nanosOfDigits digits, c :: rest) := by
  have htake : (digits ++ c :: rest).takeWhile Char.isDigit = digits := by
    rw [List.takeWhile_append_of_pos hdigits, List.takeWhile_cons_of_neg (by simp [hc]),
      List.append_nil]
  have hdrop : (digits ++ c :: rest).dropWhile Char.isDigit = c :: rest := by
    rw [List.dropWhile_append_of_pos hdigits, List.dropWhile_cons_of_neg (by simp [hc])]
  rw [takeFraction?, htake, hdrop]
  split
  · exact absurd rfl hne
  · rfl

theorem takeFraction?_places {width n : Nat} (hwidth : 1 ≤ width ∧ width ≤ 9)
    (h : n < 10 ^ width) {c : Char} (hc : c.isDigit = false) (rest : List Char) :
    takeFraction? ('.' :: (places width n ++ c :: rest)) =
      some (n * 10 ^ (9 - width), c :: rest) := by
  have hdigits : ∀ d ∈ places width n, d.isDigit = true := fun _ hd =>
    Decimal.isDigit_of_mem_places hd
  rw [takeFraction?_digits (Decimal.places_ne_nil hwidth.1 n) hdigits hc,
    nanosOfDigits_places hwidth h]

/-- A text that starts with a sign has no fields. -/
theorem read?_sign {c : Char} (h : c.isDigit = false) (rest : List Char) :
    Fields.read? (c :: rest) = none := by
  rw [Fields.read?, takeDigits?_of_not_isDigit h 3 rest]
  rfl

end MessageExchange.Time
