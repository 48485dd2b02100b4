import MessageExchange.Decimal.Integer
import Mathlib.Algebra.Order.Ring.Int
import Mathlib.Data.Nat.Log

/-!
# Starts and ends of decimal numbers

Dividing a number by ten takes its last digit off.  So the digits of a number start
with those of another exactly if dividing by a power of ten gives that number, and
end with them exactly if the remainder for as many digits does.  Zero is the start
of no number but itself, since digits have no leading zero.

A minus sign stands only at the very start of a number.  A number that starts with
another has its sign, and one that ends with a negative number is that number.
-/

namespace MessageExchange.Decimal

theorem digitChar_inj {d e : Nat} (hd : d < 10) (he : e < 10) :
    d.digitChar = e.digitChar ↔ d = e := by
  rw [← Char.toNat_inj, Nat.toNat_digitChar_of_lt_ten hd, Nat.toNat_digitChar_of_lt_ten he]
  omega

/-! ## Starts of natural numbers -/

/-- The digits that a number starts with are all of them or those without the last one. -/
theorem ofNat_prefix_ofNat_iff_or {a b : Nat} :
    ofNat b <+: ofNat a ↔ b = a ∨ 10 ≤ a ∧ ofNat b <+: ofNat (a / 10) := by
  by_cases ha : a < 10
  · have hnil : ¬ofNat b <+: [] := fun h => ofNat_ne_nil b (List.prefix_nil.1 h)
    have hlt : ¬(10 ≤ a ∧ ofNat b <+: ofNat (a / 10)) := fun h => Nat.not_le_of_lt ha h.1
    rw [ofNat_of_lt ha, ← List.nil_append [_], List.prefix_concat_iff, List.nil_append,
      ← ofNat_of_lt ha, ofNat_inj, or_iff_left hnil, or_iff_left hlt]
  · have hle : 10 ≤ a := Nat.le_of_not_lt ha
    rw [ofNat_of_le hle, List.prefix_concat_iff, ← ofNat_of_le hle, ofNat_inj,
      and_iff_right hle]

theorem exists_div_pow_eq_iff {a b : Nat} :
    (∃ k, a / 10 ^ k = b) ↔ a = b ∨ ∃ k, a / 10 / 10 ^ k = b := by
  constructor
  · rintro ⟨k, h⟩
    cases k with
    | zero => exact .inl (by rwa [Nat.pow_zero, Nat.div_one] at h)
    | succ k => exact .inr ⟨k, by rwa [Nat.div_div_eq_div_mul, ← Nat.pow_succ']⟩
  · rintro (rfl | ⟨k, h⟩)
    · exact ⟨0, by rw [Nat.pow_zero, Nat.div_one]⟩
    · exact ⟨k + 1, by rwa [Nat.pow_succ', ← Nat.div_div_eq_div_mul]⟩

/-- A number starts with another if a power of ten divides it down to that, where zero is the start
of zero only. -/
theorem ofNat_prefix_ofNat_iff {a b : Nat} :
    ofNat b <+: ofNat a ↔ (b = 0 ∧ a = 0) ∨ (b ≠ 0 ∧ ∃ k, a / 10 ^ k = b) := by
  induction a using Nat.strongRecOn with
  | ind a ih =>
      rw [ofNat_prefix_ofNat_iff_or, exists_div_pow_eq_iff]
      by_cases ha : a < 10
      · have hzero : (∃ k, a / 10 / 10 ^ k = b) ↔ b = 0 := by
          simp only [Nat.div_eq_of_lt ha, Nat.zero_div, exists_const, eq_comm]
        rw [hzero]
        omega
      · rw [ih (a / 10) (by omega)]
        have hquotient : a / 10 ≠ 0 := by omega
        have hne : a ≠ 0 := by omega
        simp only [hquotient, hne, and_false, false_or, Nat.le_of_not_lt ha, true_and]
        constructor
        · rintro (rfl | ⟨hb, hk⟩)
          · exact ⟨hne, .inl rfl⟩
          · exact ⟨hb, .inr hk⟩
        · rintro ⟨hb, rfl | hk⟩
          · exact .inl rfl
          · exact .inr ⟨hb, hk⟩

/-! ## Ends of natural numbers -/

theorem concat_suffix_concat_iff {front back : List Char} {c d : Char} :
    front ++ [c] <:+ back ++ [d] ↔ c = d ∧ front <:+ back := by
  rw [← List.reverse_prefix, List.reverse_append, List.reverse_append, List.reverse_singleton,
    List.reverse_singleton, List.singleton_append, List.singleton_append, List.cons_prefix_cons,
    List.reverse_prefix]

/-- A number ends with another if its last digits, as many as that has, are that number. -/
theorem ofNat_suffix_ofNat_iff {a b : Nat} :
    ofNat b <:+ ofNat a ↔ a % 10 ^ (ofNat b).length = b := by
  induction b using Nat.strongRecOn generalizing a with
  | ind b ih =>
      have hdigit : a % 10 < 10 := Nat.mod_lt a (by decide)
      by_cases hb : b < 10
      · rw [ofNat_of_lt hb, List.length_singleton, Nat.pow_one, ← List.nil_append [_]]
        by_cases ha : a < 10
        · rw [ofNat_of_lt ha, ← List.nil_append [a.digitChar], concat_suffix_concat_iff,
            digitChar_inj hb ha, and_iff_left List.nil_suffix]
          omega
        · rw [ofNat_of_le (Nat.le_of_not_lt ha), concat_suffix_concat_iff,
            digitChar_inj hb hdigit, and_iff_left List.nil_suffix]
          omega
      · rw [ofNat_of_le (Nat.le_of_not_lt hb), List.length_append, List.length_singleton]
        by_cases ha : a < 10
        · have hmod : a % 10 ^ ((ofNat (b / 10)).length + 1) ≤ a := Nat.mod_le _ _
          rw [ofNat_of_lt ha, ← List.nil_append [a.digitChar], concat_suffix_concat_iff]
          refine iff_of_false (fun h => ofNat_ne_nil _ (List.suffix_nil.1 h.2)) ?_
          omega
        · rw [ofNat_of_le (Nat.le_of_not_lt ha), concat_suffix_concat_iff, ih (b / 10) (by omega),
            digitChar_inj (Nat.mod_lt b (by decide)) hdigit, Nat.pow_succ', Nat.mod_mul]
          generalize a / 10 % 10 ^ (ofNat (b / 10)).length = rest
          omega

/-- A number has one digit more than its logarithm. -/
theorem length_ofNat (n : Nat) : (ofNat n).length = Nat.log 10 n + 1 := by
  induction n using Nat.strongRecOn with
  | ind n ih =>
      by_cases hn : n < 10
      · rw [ofNat_of_lt hn, Nat.log_of_lt hn]
        rfl
      · have hle : 10 ≤ n := Nat.le_of_not_lt hn
        rw [ofNat_of_le hle, List.length_append, List.length_singleton, ih (n / 10) (by omega),
          Nat.log_of_one_lt_of_le (by decide) hle]

/-! ## Signs -/

theorem ofInt_natCast (n : Nat) : ofInt n = ofNat n := rfl

theorem ofInt_neg {n : Nat} (h : n ≠ 0) : ofInt (-n) = '-' :: ofNat n := by
  obtain ⟨m, rfl⟩ := Nat.exists_eq_succ_of_ne_zero h
  rfl

/-- A whole number is a natural number, or a minus sign and a natural number other than zero. -/
theorem natCast_or_neg : ∀ a : Int, (∃ n : Nat, a = n) ∨ ∃ n : Nat, n ≠ 0 ∧ a = -n
  | .ofNat n => .inl ⟨n, rfl⟩
  | .negSucc n => .inr ⟨n + 1, Nat.succ_ne_zero n, Int.negSucc_eq n⟩

theorem natCast_tdiv_pow (n k : Nat) : (n : Int).tdiv (10 ^ k) = (n / 10 ^ k : Nat) := by
  rw [Int.ofNat_tdiv, Int.natCast_pow]
  rfl

/-- A whole number starts with another if a power of ten divides it down to that, toward zero, where
zero is the start of zero only. -/
theorem ofInt_prefix_ofInt_iff {a b : Int} :
    ofInt b <+: ofInt a ↔ (b = 0 ∧ a = 0) ∨ (b ≠ 0 ∧ ∃ k : Nat, a.tdiv (10 ^ k) = b) := by
  have hquotient (n k : Nat) : 0 ≤ (n : Int).tdiv (10 ^ k) := by
    rw [natCast_tdiv_pow]
    exact Int.natCast_nonneg _
  rcases natCast_or_neg a with ⟨n, rfl⟩ | ⟨n, hn, rfl⟩ <;>
    rcases natCast_or_neg b with ⟨m, rfl⟩ | ⟨m, hm, rfl⟩
  · simp only [ofInt_natCast, ofNat_prefix_ofNat_iff, natCast_tdiv_pow, Int.natCast_inj,
      Int.natCast_eq_zero, ne_eq]
  · rw [ofInt_natCast, ofInt_neg hm]
    refine iff_of_false (fun h => minus_notMem_ofNat n (h.subset List.mem_cons_self)) ?_
    rintro (⟨hzero, -⟩ | ⟨-, k, hk⟩)
    · omega
    · have hnonneg := hquotient n k
      omega
  · rw [ofInt_neg hn, ofInt_natCast]
    refine iff_of_false (fun h => ?_) ?_
    · obtain ⟨c, rest, hdigits⟩ := List.exists_cons_of_ne_nil (ofNat_ne_nil m)
      rw [hdigits, List.cons_prefix_cons] at h
      exact minus_notMem_ofNat m (by rw [hdigits, h.1]; exact List.mem_cons_self)
    · rintro (⟨-, hzero⟩ | ⟨hne, k, hk⟩)
      · omega
      · have hnonneg := hquotient n k
        rw [Int.neg_tdiv] at hk
        omega
  · rw [ofInt_neg hn, ofInt_neg hm, List.cons_prefix_cons, and_iff_right rfl,
      ofNat_prefix_ofNat_iff]
    simp only [Int.neg_tdiv, natCast_tdiv_pow, Int.neg_inj, Int.natCast_inj, Int.neg_eq_zero,
      Int.natCast_eq_zero, ne_eq]

/-- A whole number ends with a natural number if its last digits, as many as that has, are that
number. -/
theorem ofNat_suffix_ofInt_iff {a : Int} {b : Nat} :
    ofNat b <:+ ofInt a ↔ a.natAbs % 10 ^ (ofNat b).length = b := by
  rcases natCast_or_neg a with ⟨n, rfl⟩ | ⟨n, hn, rfl⟩
  · rw [ofInt_natCast, Int.natAbs_natCast, ofNat_suffix_ofNat_iff]
  · have hne : ofNat b ≠ '-' :: ofNat n := fun h =>
      minus_notMem_ofNat b (h ▸ List.mem_cons_self)
    rw [ofInt_neg hn, List.suffix_cons_iff, or_iff_right hne, Int.natAbs_neg, Int.natAbs_natCast,
      ofNat_suffix_ofNat_iff]

/-- A whole number ends with a negative number only if it is that number. -/
theorem ofInt_suffix_ofInt_iff_of_neg {a b : Int} (hb : b < 0) :
    ofInt b <:+ ofInt a ↔ a = b := by
  obtain ⟨m, hm, rfl⟩ : ∃ m : Nat, m ≠ 0 ∧ b = -m := by
    rcases natCast_or_neg b with ⟨m, rfl⟩ | hneg
    · omega
    · exact hneg
  have hminus (n : Nat) : ¬ofInt (-m) <:+ ofNat n := fun h =>
    minus_notMem_ofNat n (h.subset (by rw [ofInt_neg hm]; exact List.mem_cons_self))
  rcases natCast_or_neg a with ⟨n, rfl⟩ | ⟨n, hn, rfl⟩
  · exact iff_of_false (hminus n) (by omega)
  · rw [ofInt_neg hn, List.suffix_cons_iff, or_iff_left (hminus n), ← ofInt_neg hn, ofInt_inj,
      eq_comm]

end MessageExchange.Decimal
