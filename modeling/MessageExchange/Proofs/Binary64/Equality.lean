import MessageExchange.Proofs.Binary64.Denotation

/-!
# Equality of numbers

Two patterns are equal if they denote the same number or are the same infinity
(`beq_iff`).  The equality of the program looks at the bits and takes the two zeros
for equal.  So this says that no other number has two patterns.

The number of a finite pattern is a whole number of units of `2 ^ -1074`.  A larger
exponent has more of them, whatever the fractions (`units_lt_units`).
-/

namespace MessageExchange.Binary64

variable {x y : Binary64}

/-! ## Units -/

/-- How many units of `2 ^ -1074` the number of a finite pattern has, but for its sign. -/
def units (x : Binary64) : Nat :=
  if x.exponentField = 0 then x.fractionField
  else (2 ^ 52 + x.fractionField) * 2 ^ (x.exponentField - 1)

theorem value?_decode (h : x.exponentField ≠ 2047) :
    x.decode.value? = some ((signed x.isNegative x.units : ℚ) * 2 ^ (-1074 : ℤ)) := by
  rw [decode, if_neg h, units]
  split
  · rfl
  · next hzero =>
    have hexponent : (x.exponentField : ℤ) - 1075 = (x.exponentField - 1 : ℕ) + (-1074) := by
      omega
    rw [Datum.value?, hexponent, zpow_add₀ (by norm_num), zpow_natCast, signed_mul,
      Nat.shiftLeft_eq, Nat.one_mul, Int.cast_mul, Int.cast_natCast, Nat.cast_pow, Nat.cast_ofNat,
      mul_assoc]

theorem units_lt (x : Binary64) : x.units < 2 ^ 52 * 2 ^ x.exponentField := by
  have hfraction := x.hasFields.fraction_lt
  rw [units]
  split
  · next hzero => rwa [hzero, pow_zero, Nat.mul_one]
  · next hzero =>
    obtain ⟨k, hk⟩ := Nat.exists_eq_add_one_of_ne_zero hzero
    rw [hk, Nat.add_sub_cancel, pow_succ' 2 k, ← Nat.mul_assoc]
    exact Nat.mul_lt_mul_of_pos_right (by omega) (Nat.two_pow_pos k)

theorem le_units (h : 0 < x.exponentField) : 2 ^ 52 * 2 ^ (x.exponentField - 1) ≤ x.units := by
  rw [units, if_neg (Nat.ne_of_gt h)]
  exact Nat.mul_le_mul_right _ (Nat.le_add_right _ _)

theorem units_lt_units (h : x.exponentField < y.exponentField) : x.units < y.units :=
  calc
    x.units < 2 ^ 52 * 2 ^ x.exponentField := x.units_lt
    _ ≤ 2 ^ 52 * 2 ^ (y.exponentField - 1) :=
      Nat.mul_le_mul_left _ (Nat.pow_le_pow_right (by decide) (Nat.le_sub_one_of_lt h))
    _ ≤ y.units := le_units (Nat.zero_lt_of_lt h)

theorem fields_eq_of_units (h : x.units = y.units) :
    x.exponentField = y.exponentField ∧ x.fractionField = y.fractionField := by
  have hexponent : x.exponentField = y.exponentField := by
    rcases Nat.lt_trichotomy x.exponentField y.exponentField with hlt | heq | hgt
    · exact absurd h (Nat.ne_of_lt (units_lt_units hlt))
    · exact heq
    · exact absurd h (Nat.ne_of_gt (units_lt_units hgt))
  refine ⟨hexponent, ?_⟩
  rw [units, units, hexponent] at h
  split at h
  · exact h
  · have hsum := Nat.eq_of_mul_eq_mul_right (Nat.two_pow_pos _) h
    omega

theorem isZero_iff : x.isZero = true ↔ x.units = 0 := by
  rw [isZero, Bool.and_eq_true, beq_iff_eq, beq_iff_eq, units]
  constructor
  · rintro ⟨hexponent, hfraction⟩
    rw [if_pos hexponent, hfraction]
  · intro h
    split at h
    · next hexponent => exact ⟨hexponent, h⟩
    · have := Nat.two_pow_pos (x.exponentField - 1)
      rcases Nat.mul_eq_zero.1 h with hsum | hpow <;> omega

theorem sign_eq_of_signed {negative negative' : Bool} {n : Nat} (hn : n ≠ 0)
    (h : signed negative n = signed negative' n) : negative = negative' := by
  cases negative <;> cases negative' <;> simp [signed] at h ⊢ <;> omega

/-! ## Patterns -/

theorem eq_of_fields (hsign : x.isNegative = y.isNegative)
    (hexponent : x.exponentField = y.exponentField)
    (hfraction : x.fractionField = y.fractionField) : x = y := by
  have hx := x.hasFields.bits_eq
  rw [hsign, hexponent, hfraction, ← y.hasFields.bits_eq] at hx
  cases x; cases y
  exact congrArg mk (UInt64.toNat_inj.1 hx)

theorem isNaN_eq_false_iff : x.isNaN = false ↔ x.decode ≠ .nan := by
  rw [isNaN, decode]
  split
  · next hmax => by_cases h : x.fractionField = 0 <;> simp [hmax, h]
  · next hmax => by_cases h : x.exponentField = 0 <;> simp [hmax, h]

theorem decode_eq_infinite_iff {negative : Bool} :
    x.decode = .infinite negative ↔
      x.exponentField = 2047 ∧ x.fractionField = 0 ∧ x.isNegative = negative := by
  rw [decode]
  split
  · next hmax => by_cases h : x.fractionField = 0 <;> simp [hmax, h]
  · next hmax => by_cases h : x.exponentField = 0 <;> simp [hmax, h]

/-! ## Equality -/

/-- Two patterns of the same number, or of the same infinity. -/
inductive SameNumber (x y : Binary64) : Prop where
  | finite {q : ℚ} : x.Denotes q → y.Denotes q → SameNumber x y
  | infinite {negative : Bool} :
      x.decode = .infinite negative → y.decode = .infinite negative → SameNumber x y

theorem sameNumber_self_iff : x.SameNumber x ↔ x.decode ≠ .nan := by
  constructor
  · rintro (⟨h, -⟩ | ⟨h, -⟩) hnan
    · rw [denotes_iff, hnan] at h
      cases h
    · rw [hnan] at h
      cases h
  · intro hnan
    cases hdecode : x.decode with
    | nan => exact absurd hdecode hnan
    | infinite negative => exact .infinite hdecode hdecode
    | finite negative mantissa exponent =>
        have hvalue : x.Denotes (signed negative mantissa * 2 ^ exponent) := by
          rw [denotes_iff, hdecode]
          rfl
        exact .finite hvalue hvalue

namespace SameNumber

theorem symm (h : x.SameNumber y) : y.SameNumber x := by
  cases h with
  | finite hx hy => exact .finite hy hx
  | infinite hx hy => exact .infinite hy hx

theorem trans {z : Binary64} (h : x.SameNumber y) (h' : y.SameNumber z) : x.SameNumber z := by
  cases h with
  | finite hx hy =>
      cases h' with
      | finite hy' hz => exact .finite hx (hy.eq hy' ▸ hz)
      | infinite hy' hz =>
          rw [denotes_iff, hy'] at hy
          cases hy
  | infinite hx hy =>
      cases h' with
      | finite hy' hz =>
          rw [denotes_iff, hy] at hy'
          cases hy'
      | infinite hy' hz => exact .infinite hx (hy.symm.trans hy' ▸ hz)

end SameNumber

/-- The pattern of a number is the only one, but for the sign of zero. -/
theorem eq_or_isZero_of_denotes {q : ℚ} (hx : x.Denotes q) (hy : y.Denotes q) :
    x = y ∨ x.isZero = true ∧ y.isZero = true := by
  have hvalues : (signed x.isNegative x.units : ℚ) * 2 ^ (-1074 : ℤ) =
      signed y.isNegative y.units * 2 ^ (-1074 : ℤ) := by
    have hx' := value?_decode (exists_denotes_iff.1 ⟨q, hx⟩)
    have hy' := value?_decode (exists_denotes_iff.1 ⟨q, hy⟩)
    rw [denotes_iff.1 hx] at hx'
    rw [denotes_iff.1 hy] at hy'
    exact Option.some.inj (hx'.symm.trans hy')
  have hsigned : signed x.isNegative x.units = signed y.isNegative y.units :=
    Int.cast_injective (mul_right_cancel₀ (zpow_ne_zero _ two_ne_zero) hvalues)
  have hunits : x.units = y.units := by
    rw [← natAbs_signed x.isNegative x.units, hsigned, natAbs_signed]
  rw [isZero_iff, isZero_iff, ← hunits, and_self]
  by_cases hzero : x.units = 0
  · exact .inr hzero
  · obtain ⟨hexponent, hfraction⟩ := fields_eq_of_units hunits
    rw [← hunits] at hsigned
    exact .inl (eq_of_fields (sign_eq_of_signed hzero hsigned) hexponent hfraction)

theorem denotes_zero (h : x.isZero = true) : x.Denotes 0 := by
  have hmax : x.exponentField ≠ 2047 := by
    rw [isZero, Bool.and_eq_true, beq_iff_eq] at h
    omega
  rw [denotes_iff, value?_decode hmax, isZero_iff.1 h, cast_signed]
  simp

/-- The equality of patterns is that of their numbers. -/
theorem beq_iff : (x == y) = true ↔ x.SameNumber y := by
  change equal x y = true ↔ _
  simp only [equal, Bool.and_eq_true, Bool.or_eq_true, Bool.not_eq_true', beq_iff_eq]
  constructor
  · rintro ⟨⟨hx, -⟩, hbits | ⟨hzero, hzero'⟩⟩
    · cases x; cases y
      cases hbits
      exact sameNumber_self_iff.2 (isNaN_eq_false_iff.1 hx)
    · exact .finite (denotes_zero hzero) (denotes_zero hzero')
  · intro h
    have hx := isNaN_eq_false_iff.2 (sameNumber_self_iff.1 (h.trans h.symm))
    have hy := isNaN_eq_false_iff.2 (sameNumber_self_iff.1 (h.symm.trans h))
    refine ⟨⟨hx, hy⟩, ?_⟩
    cases h with
    | finite hvalue hvalue' =>
        rcases eq_or_isZero_of_denotes hvalue hvalue' with rfl | hzero
        · exact .inl rfl
        · exact .inr hzero
    | infinite hdecode hdecode' =>
        obtain ⟨hmax, hfraction, hsign⟩ := decode_eq_infinite_iff.1 hdecode
        obtain ⟨hmax', hfraction', hsign'⟩ := decode_eq_infinite_iff.1 hdecode'
        exact .inl (congrArg bits (eq_of_fields (hsign.trans hsign'.symm) (hmax.trans hmax'.symm)
          (hfraction.trans hfraction'.symm)))

end MessageExchange.Binary64
