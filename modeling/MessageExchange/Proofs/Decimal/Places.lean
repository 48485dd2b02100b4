import MessageExchange.Decimal.Integer
import Mathlib.Algebra.Order.Ring.Nat

/-!
# Digits by place

`places width n` are the last `width` decimal digits of `n`, the highest place
first.  A number below the power of ten with that many zeros is padded to exactly
these digits (`padded_eq_places`), and reading them gives the number back
(`readNat?_padded`).
-/

namespace MessageExchange.Decimal

/-- The digits of the last places of a number. -/
def places : Nat → Nat → List Char
  | 0, _ => []
  | width + 1, n => places width (n / 10) ++ [Nat.digitChar (n % 10)]

@[simp] theorem length_places (width n : Nat) : (places width n).length = width := by
  induction width generalizing n with
  | zero => rfl
  | succ width ih => rw [places, List.length_append, ih, List.length_singleton]

theorem places_ne_nil {width : Nat} (h : 0 < width) (n : Nat) : places width n ≠ [] :=
  List.ne_nil_of_length_pos (by rwa [length_places])

theorem places_zero (width : Nat) : places width 0 = List.replicate width '0' := by
  induction width with
  | zero => rfl
  | succ width ih =>
      rw [places, Nat.zero_div, ih, List.replicate_succ']
      rfl

/-- The last digit takes the last place. -/
theorem padded_succ {width n : Nat} (h : 10 ≤ n) :
    padded (width + 1) n = padded width (n / 10) ++ [Nat.digitChar (n % 10)] := by
  rw [padded, padded, ofNat_of_le h, List.leftpad, List.leftpad, List.length_append,
    List.length_singleton, Nat.add_sub_add_right, List.append_assoc]

theorem padded_of_lt {width n : Nat} (h : n < 10) :
    padded (width + 1) n = List.replicate width '0' ++ [Nat.digitChar n] := by
  rw [padded, ofNat_of_lt h, List.leftpad, List.length_singleton, Nat.add_sub_cancel]

theorem padded_eq_places {width n : Nat} (hwidth : 0 < width) (h : n < 10 ^ width) :
    padded width n = places width n := by
  induction width, hwidth using Nat.le_induction generalizing n with
  | base =>
      have hn : n < 10 := h
      rw [padded_of_lt hn, places, Nat.mod_eq_of_lt hn]
      rfl
  | succ width _ ih =>
      by_cases hn : n < 10
      · rw [padded_of_lt hn, places, Nat.div_eq_of_lt hn, places_zero, Nat.mod_eq_of_lt hn]
      · have hdiv : n / 10 < 10 ^ width := by
          rw [Nat.pow_succ] at h
          omega
        rw [padded_succ (Nat.le_of_not_lt hn), ih hdiv]
        rfl

theorem isDigit_of_mem_padded {width n : Nat} {c : Char} (h : c ∈ padded width n) :
    c.isDigit = true := by
  rcases List.mem_append.1 h with h | h
  · rw [List.eq_of_mem_replicate h]
    rfl
  · exact isDigit_of_mem_ofNat h

/-- The zeros before a number count nothing. -/
theorem ofDigitChars_padded (width n : Nat) : Nat.ofDigitChars 10 (padded width n) 0 = n := by
  rw [padded, List.leftpad, Nat.ofDigitChars_append, Nat.ofDigitChars_replicate_zero, Nat.mul_zero,
    ofNat, Nat.ofDigitChars_ten_toDigits]

@[simp] theorem readNat?_padded (width n : Nat) : readNat? (padded width n) = some n := by
  have hne : padded width n ≠ [] := by simp [padded, List.leftpad, ofNat_ne_nil]
  have hall : (padded width n).all Char.isDigit = true :=
    List.all_eq_true.2 fun _ h => isDigit_of_mem_padded h
  rw [readNat?, if_pos ⟨hne, hall⟩, ofDigitChars_padded]

theorem ofDigitChars_places {width n : Nat} (hwidth : 0 < width) (h : n < 10 ^ width) :
    Nat.ofDigitChars 10 (places width n) 0 = n := by
  rw [← padded_eq_places hwidth h, ofDigitChars_padded]

theorem readNat?_places {width n : Nat} (hwidth : 0 < width) (h : n < 10 ^ width) :
    readNat? (places width n) = some n := by
  rw [← padded_eq_places hwidth h, readNat?_padded]

theorem isDigit_of_mem_places {width n : Nat} {c : Char} (h : c ∈ places width n) :
    c.isDigit = true := by
  induction width generalizing n with
  | zero => cases h
  | succ width ih =>
      rcases List.mem_append.1 h with h | h
      · exact ih h
      · rw [List.mem_singleton.1 h, Nat.isDigit_digitChar, decide_eq_true_eq]
        exact Nat.mod_lt _ (by decide)

end MessageExchange.Decimal
