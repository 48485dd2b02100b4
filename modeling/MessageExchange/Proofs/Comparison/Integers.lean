import MessageExchange.Proofs.Comparison.Order
import MessageExchange.Proofs.Decimal.Ends

/-!
# Comparing whole numbers

Whole numbers are compared by their digits in decimal.  Starting with a number is
being divided down to it by a power of ten, and ending with a number is having it as
the remainder (`compare_integers`).
-/

namespace MessageExchange

/-- The text of a whole number, whatever the number. -/
theorem hasText_int (n : Int64) :
    HasText .standard (some (.int n)) (String.ofList (Decimal.ofInt n.toInt)) :=
  ⟨_, rfl, nofun, rfl⟩

theorem startsWith_int_iff {a b : Int64} :
    startsWith .standard (some (.int a)) (some (.int b)) = true ↔
      Decimal.ofInt b.toInt <+: Decimal.ofInt a.toInt := by
  rw [startsWith_iff, Related.texts_iff (hasText_int a) (hasText_int b), ← Text.prefix_toList_iff,
    String.toList_ofList, String.toList_ofList]

theorem endsWith_int_iff {a b : Int64} :
    endsWith .standard (some (.int a)) (some (.int b)) = true ↔
      Decimal.ofInt b.toInt <:+ Decimal.ofInt a.toInt := by
  rw [endsWith_iff, Related.texts_iff (hasText_int a) (hasText_int b), ← Text.suffix_toList_iff,
    String.toList_ofList, String.toList_ofList]

/-- A whole number starts with another exactly if a power of ten divides it down to that, toward
zero, except that only zero starts with zero.  It ends with a number that is not negative exactly if
that is its remainder for as many digits, whatever its sign, and with a negative number exactly if
it is that number.  The digits are one more than the logarithm. -/
theorem compare_integers (a b : Int64) :
    (startsWith .standard (some (.int a)) (some (.int b)) = true ↔
        (b = 0 ∧ a = 0) ∨ (b ≠ 0 ∧ ∃ k : Nat, a.toInt.tdiv (10 ^ k) = b.toInt)) ∧
      (0 ≤ b.toInt →
        (endsWith .standard (some (.int a)) (some (.int b)) = true ↔
          (a.toInt.natAbs : Int) % 10 ^ (Nat.log 10 b.toInt.natAbs + 1) = b.toInt)) ∧
      (b.toInt < 0 →
        (endsWith .standard (some (.int a)) (some (.int b)) = true ↔ a = b)) := by
  refine ⟨?_, fun hb => ?_, fun hb => ?_⟩
  · have hzero (n : Int64) : n = 0 ↔ n.toInt = 0 := Int64.toInt_inj.symm
    rw [startsWith_int_iff, Decimal.ofInt_prefix_ofInt_iff]
    simp only [hzero a, hzero b, ne_eq]
  · obtain ⟨m, hm⟩ := Int.eq_ofNat_of_zero_le hb
    rw [endsWith_int_iff, hm, Int.natAbs_natCast, Decimal.ofInt_natCast,
      Decimal.ofNat_suffix_ofInt_iff, Decimal.length_ofNat, ← Int.natCast_inj, Int.natCast_emod,
      Int.natCast_pow]
    rfl
  · rw [endsWith_int_iff, Decimal.ofInt_suffix_ofInt_iff_of_neg hb, Int64.toInt_inj]

/-- The least number of 64 bits ends with its last digits without the sign, and of the negative
numbers with itself only. -/
theorem compare_integers_at_least :
    let least := Int64.minValue
    (0 ≤ (808 : Int64).toInt ∧
        endsWith .standard (some (.int least)) (some (.int 808)) = true) ∧
      ((-808 : Int64).toInt < 0 ∧
        endsWith .standard (some (.int least)) (some (.int (-808))) = false) ∧
      startsWith .standard (some (.int least)) (some (.int (-92))) = true := by
  intro least
  have hpos : 0 ≤ (808 : Int64).toInt := by decide
  have hneg : (-808 : Int64).toInt < 0 := by decide
  have hlog : Nat.log 10 (808 : Int64).toInt.natAbs = 2 :=
    (Nat.log_eq_iff (.inl (by decide))).2 (by decide)
  have hmod : (least.toInt.natAbs : Int) % 10 ^ (Nat.log 10 (808 : Int64).toInt.natAbs + 1) =
      (808 : Int64).toInt := by
    rw [hlog]
    decide
  have hends : ¬endsWith .standard (some (.int least)) (some (.int (-808))) = true :=
    mt ((compare_integers least (-808)).2.2 hneg).1 (by decide)
  refine ⟨⟨hpos, ((compare_integers least 808).2.1 hpos).2 hmod⟩,
    ⟨hneg, Bool.eq_false_iff.2 hends⟩, (compare_integers least (-92)).1.2 ?_⟩
  exact .inr ⟨by decide, 17, by decide⟩

end MessageExchange
