import MessageExchange.Decimal.Positional
import Mathlib.Algebra.Order.Ring.Nat

/-!
# The positional form

A decimal whose power of ten is not negative is written with the digits of the whole
number that it is (`positional_of_nonneg`).  Any other has a point
(`point_mem_positional`).
-/

namespace MessageExchange.Decimal

/-- Factors of ten are zeros after the digits. -/
theorem ofNat_mul_pow {n : Nat} (hn : n ≠ 0) (count : Nat) :
    ofNat (n * 10 ^ count) = ofNat n ++ List.replicate count '0' := by
  induction count with
  | zero => rw [pow_zero, Nat.mul_one, List.replicate_zero, List.append_nil]
  | succ count ih =>
      have hpos : 0 < n * 10 ^ count :=
        Nat.mul_pos (Nat.pos_of_ne_zero hn) (Nat.pow_pos (by decide))
      have hzero : Nat.digitChar 0 = '0' := rfl
      rw [pow_succ, ← Nat.mul_assoc, ofNat_of_le (by omega), Nat.mul_div_cancel _ (by decide),
        Nat.mul_mod_left, ih, List.append_assoc, hzero, ← List.replicate_succ']

namespace Scaled

variable {x : Scaled}

theorem positional_of_nonneg (hexponent : 0 ≤ x.exponent)
    (hx : x.coefficient ≠ 0 ∨ x.exponent = 0) :
    x.positional = ofNat (x.coefficient * 10 ^ x.exponent.toNat) := by
  have hwhole : ofNat x.coefficient ++ List.replicate x.exponent.toNat '0' =
      ofNat (x.coefficient * 10 ^ x.exponent.toNat) := by
    rcases hx with hcoefficient | hzero
    · exact (ofNat_mul_pow hcoefficient _).symm
    · rw [hzero, Int.toNat_zero, pow_zero, Nat.mul_one, List.replicate_zero, List.append_nil]
  have hplaces : (-x.exponent).toNat = 0 := by omega
  have hparts : x.parts = (ofNat (x.coefficient * 10 ^ x.exponent.toNat), []) := by
    have hlength := List.length_pos_iff.2 (ofNat_ne_nil (x.coefficient * 10 ^ x.exponent.toNat))
    rw [parts, hwhole, hplaces, List.leftpad, Nat.zero_add, Nat.sub_eq_zero_of_le hlength,
      List.replicate_zero, List.nil_append, Nat.sub_zero, List.take_length, List.drop_length]
  rw [positional, hparts]

theorem point_mem_positional (hexponent : x.exponent < 0) : '.' ∈ x.positional := by
  have hfraction : x.parts.2 ≠ [] := by
    rw [parts, ← List.length_pos_iff, List.length_drop, List.leftpad, List.length_append,
      List.length_replicate]
    omega
  rw [positional]
  split
  · next hparts => exact absurd (congrArg Prod.snd hparts) hfraction
  · exact List.mem_append_right _ List.mem_cons_self

end Scaled

end MessageExchange.Decimal
