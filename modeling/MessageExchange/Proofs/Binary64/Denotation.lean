import MessageExchange.Binary64.Basic
import Mathlib.Data.Rat.Cast.Order
import Mathlib.Tactic.Ring

/-!
# The numbers of binary64 patterns

A pattern is a sign bit, eleven bits of exponent and 52 bits of fraction
(`HasFields`).  `Denotes` gives the number of a pattern by the two rules of the
format.  With an exponent of zero the fraction counts as it is, in units of
`2 ^ -1022`.  Otherwise a one stands before it and the exponent is biased by 1023.
There is no rule for the exponent 2047, so the infinities and NaN denote nothing.

A pattern denotes at most one number, which is that of what it is decoded to
(`denotes_iff`).  `toInt?` gives a whole number exactly if the pattern denotes it
(`toInt?_eq_some_iff`), and the order of patterns is that of the numbers they
denote (`atMost_iff`, `less_iff`).
-/

namespace MessageExchange.Binary64

/-! ## Fields -/

/-- A pattern is put together from a sign, an exponent and a fraction. -/
structure HasFields (x : Binary64) (sign exponent fraction : Nat) : Prop where
  sign_lt : sign < 2
  exponent_lt : exponent < 2 ^ 11
  fraction_lt : fraction < 2 ^ 52
  bits_eq : x.bits.toNat = sign * 2 ^ 63 + exponent * 2 ^ 52 + fraction

/-- The number that a pattern denotes. -/
inductive Denotes (x : Binary64) : ℚ → Prop where
  /-- Nothing stands before the fraction. -/
  | subnormal {sign fraction : Nat} :
      x.HasFields sign 0 fraction →
      x.Denotes ((-1) ^ sign * (fraction / 2 ^ 52) * 2 ^ (-1022 : ℤ))
  /-- A one stands before the fraction. -/
  | normal {sign exponent fraction : Nat} :
      x.HasFields sign exponent fraction → 0 < exponent → exponent < 2047 →
      x.Denotes ((-1) ^ sign * (1 + fraction / 2 ^ 52) * 2 ^ ((exponent : ℤ) - 1023))

theorem hasFields (x : Binary64) :
    x.HasFields x.isNegative.toNat x.exponentField x.fractionField := by
  have hlt := x.bits.toNat_lt
  have hsign : x.isNegative.toNat = x.bits.toNat / 2 ^ 63 := by
    rw [isNegative, Nat.shiftRight_eq_div_pow]
    by_cases h : x.bits.toNat / 2 ^ 63 = 1
    · rw [h]
      rfl
    · have hzero : x.bits.toNat / 2 ^ 63 = 0 := by omega
      rw [hzero]
      rfl
  have hexponent : x.exponentField = x.bits.toNat / 2 ^ 52 % 2048 := by
    rw [exponentField, Nat.shiftRight_eq_div_pow]
  have hfraction : x.fractionField = x.bits.toNat % 2 ^ 52 := by
    rw [fractionField, Nat.shiftLeft_eq, Nat.one_mul]
  refine ⟨?_, ?_, ?_, ?_⟩ <;> omega

/-- The fields that a pattern is put together from are its own. -/
theorem HasFields.eq {x : Binary64} {sign exponent fraction : Nat}
    (h : x.HasFields sign exponent fraction) :
    sign = x.isNegative.toNat ∧ exponent = x.exponentField ∧ fraction = x.fractionField := by
  obtain ⟨hsign, hexponent, hfraction, hbits⟩ := h
  obtain ⟨hsign', hexponent', hfraction', hbits'⟩ := x.hasFields
  omega

/-! ## Values -/

theorem cast_signed (negative : Bool) (n : Nat) :
    (signed negative n : ℚ) = (-1) ^ negative.toNat * n := by
  cases negative <;> simp [signed]

theorem signed_mul (negative : Bool) (m n : Nat) :
    signed negative (m * n) = signed negative m * n := by
  cases negative <;> simp [signed]

/-- The number that a datum stands for, if it is finite. -/
def Datum.value? : Datum → Option ℚ
  | .nan => none
  | .infinite _ => none
  | .finite negative mantissa exponent => some (signed negative mantissa * 2 ^ exponent)

/-- The places of the fraction lower the exponent by 52. -/
theorem two_zpow_sub (k : ℤ) : (2 : ℚ) ^ (k - 52) = 2 ^ k / 2 ^ 52 :=
  zpow_sub₀ (by norm_num) k 52

theorem value?_decode_of_subnormal {x : Binary64} (h : x.exponentField = 0) :
    x.decode.value? =
      some ((-1 : ℚ) ^ x.isNegative.toNat * (x.fractionField / 2 ^ 52) * 2 ^ (-1022 : ℤ)) := by
  have hexponent : (-1074 : ℤ) = -1022 - 52 := by decide
  rw [decode, h, if_neg (by decide), if_pos rfl, Datum.value?, cast_signed, hexponent,
    two_zpow_sub]
  congr 1
  ring

theorem value?_decode_of_normal {x : Binary64} (hzero : x.exponentField ≠ 0)
    (hmax : x.exponentField ≠ 2047) :
    x.decode.value? =
      some ((-1 : ℚ) ^ x.isNegative.toNat * (1 + x.fractionField / 2 ^ 52) *
        2 ^ ((x.exponentField : ℤ) - 1023)) := by
  have hexponent : (x.exponentField : ℤ) - 1075 = x.exponentField - 1023 - 52 := by omega
  rw [decode, if_neg hmax, if_neg hzero, Datum.value?, cast_signed, hexponent, two_zpow_sub,
    Nat.shiftLeft_eq]
  congr 1
  push_cast
  ring

theorem value?_decode_of_max {x : Binary64} (h : x.exponentField = 2047) :
    x.decode.value? = none := by
  rw [decode, if_pos h]
  split <;> rfl

/-- A pattern denotes the value of what it is decoded to, and nothing else. -/
theorem denotes_iff {x : Binary64} {q : ℚ} : x.Denotes q ↔ x.decode.value? = some q := by
  constructor
  · intro h
    cases h with
    | subnormal hfields =>
        obtain ⟨rfl, hexponent, rfl⟩ := hfields.eq
        exact value?_decode_of_subnormal hexponent.symm
    | normal hfields hpos hlt =>
        obtain ⟨rfl, rfl, rfl⟩ := hfields.eq
        exact value?_decode_of_normal (Nat.ne_of_gt hpos) (Nat.ne_of_lt hlt)
  · intro h
    have hfields := x.hasFields
    by_cases hzero : x.exponentField = 0
    · rw [value?_decode_of_subnormal hzero] at h
      rw [hzero] at hfields
      exact Option.some.inj h ▸ .subnormal hfields
    · by_cases hmax : x.exponentField = 2047
      · rw [value?_decode_of_max hmax] at h
        cases h
      · rw [value?_decode_of_normal hzero hmax] at h
        have hlt := hfields.exponent_lt
        exact Option.some.inj h ▸ .normal hfields (Nat.pos_of_ne_zero hzero) (by omega)

theorem Denotes.eq {x : Binary64} {p q : ℚ} (hp : x.Denotes p) (hq : x.Denotes q) : p = q :=
  Option.some.inj ((denotes_iff.1 hp).symm.trans (denotes_iff.1 hq))

/-- Every pattern denotes a number but the infinities and NaN. -/
theorem exists_denotes_iff {x : Binary64} : (∃ q, x.Denotes q) ↔ x.exponentField ≠ 2047 := by
  constructor
  · rintro ⟨q, h⟩ hmax
    rw [denotes_iff, value?_decode_of_max hmax] at h
    cases h
  · intro hmax
    by_cases hzero : x.exponentField = 0
    · exact ⟨_, denotes_iff.2 (value?_decode_of_subnormal hzero)⟩
    · exact ⟨_, denotes_iff.2 (value?_decode_of_normal hzero hmax)⟩

/-! ## Whole numbers -/

theorem natAbs_signed (negative : Bool) (n : Nat) : (signed negative n).natAbs = n := by
  cases negative <;> simp [signed]

/-- A number of units is a whole number if the unit divides it. -/
theorem signed_eq_mul_iff {negative : Bool} {m unit : Nat} (hunit : 0 < unit) {n : Int} :
    signed negative m = n * unit ↔ m % unit = 0 ∧ signed negative (m / unit) = n := by
  constructor
  · intro h
    have habs := congrArg Int.natAbs h
    rw [natAbs_signed, Int.natAbs_mul, Int.natAbs_natCast] at habs
    have hdvd : unit ∣ m := ⟨n.natAbs, habs.trans (Nat.mul_comm _ _)⟩
    have hmul := signed_mul negative (m / unit) unit
    rw [Nat.div_mul_cancel hdvd, h] at hmul
    exact ⟨Nat.mod_eq_zero_of_dvd hdvd, (Int.eq_of_mul_eq_mul_right (by omega) hmul).symm⟩
  · rintro ⟨hmod, rfl⟩
    rw [← signed_mul, Nat.div_mul_cancel (Nat.dvd_of_mod_eq_zero hmod)]

/-- The whole number that a datum stands for, if it stands for one. -/
def Datum.toInt? (d : Datum) : Option Int := if d.isWhole then some d.truncated else none

/-- The whole number that a pattern stands for, if it stands for one. -/
def toInt? (x : Binary64) : Option Int := x.decode.toInt?

theorem Datum.toInt?_finite (negative : Bool) (mantissa : Nat) (exponent : Int) :
    (Datum.finite negative mantissa exponent).toInt? =
      if 0 ≤ exponent then some (signed negative (mantissa <<< exponent.toNat))
      else if mantissa % (1 <<< (-exponent).toNat) = 0 then
        some (signed negative (mantissa >>> (-exponent).toNat))
      else none := by
  by_cases h : 0 ≤ exponent <;> simp [toInt?, isWhole, truncated, h]

/-- A datum is read as a whole number exactly if that is its value. -/
theorem Datum.toInt?_eq_some_iff {d : Datum} {n : Int} :
    d.toInt? = some n ↔ d.value? = some (n : ℚ) := by
  cases d with
  | nan => simp [toInt?, isWhole, value?]
  | infinite negative => simp [toInt?, isWhole, value?]
  | finite negative mantissa exponent =>
      rw [toInt?_finite, value?, Option.some_inj]
      split
      case isTrue hexponent =>
        obtain ⟨places, rfl⟩ := Int.eq_ofNat_of_zero_le hexponent
        rw [Option.some_inj, Int.toNat_natCast, Nat.shiftLeft_eq, signed_mul, zpow_natCast]
        exact_mod_cast Iff.rfl
      case isFalse hexponent =>
        obtain ⟨places, rfl⟩ : ∃ places : Nat, exponent = -places := ⟨exponent.natAbs, by omega⟩
        have hvalue : (signed negative mantissa : ℚ) * 2 ^ (-places : ℤ) = n ↔
            signed negative mantissa = n * (2 ^ places : Nat) := by
          rw [zpow_neg, zpow_natCast, ← div_eq_mul_inv, div_eq_iff (pow_ne_zero _ two_ne_zero)]
          exact_mod_cast Iff.rfl
        rw [hvalue, signed_eq_mul_iff (Nat.two_pow_pos places), Int.neg_neg, Int.toNat_natCast,
          Nat.shiftLeft_eq, Nat.one_mul, Nat.shiftRight_eq_div_pow, Option.ite_none_right_eq_some,
          Option.some_inj]

/-- A pattern is read as a whole number exactly if it denotes it. -/
theorem toInt?_eq_some_iff {x : Binary64} {n : Int} : x.toInt? = some n ↔ x.Denotes n := by
  rw [toInt?, Datum.toInt?_eq_some_iff, denotes_iff]

/-- A subnormal number lies between zero and one, so it is not whole. -/
theorem not_denotes_of_subnormal {x : Binary64} (hexponent : x.exponentField = 0)
    (hfraction : x.fractionField ≠ 0) (n : Int) : ¬x.Denotes n := by
  have hmod : x.fractionField % (1 <<< 1074) = x.fractionField :=
    Nat.mod_eq_of_lt (Nat.lt_trans x.hasFields.fraction_lt (by decide))
  have hdecode : x.decode = .finite x.isNegative x.fractionField (-1074) := by
    rw [decode, hexponent, if_neg (by decide), if_pos rfl]
  have hnone : x.toInt? = none := by
    rw [toInt?, hdecode, Datum.toInt?_finite, if_neg (by decide)]
    exact if_neg fun h => hfraction (hmod.symm.trans h)
  rw [← toInt?_eq_some_iff, hnone]
  exact nofun

/-! ## Order -/

/-- A number counted in smaller units is the same number. -/
theorem cast_units (negative : Bool) (mantissa : Nat) {exponent unit : ℤ} (h : unit ≤ exponent) :
    (signed negative (mantissa <<< (exponent - unit).toNat) : ℚ) * 2 ^ unit =
      signed negative mantissa * 2 ^ exponent := by
  have hsub : ((exponent - unit).toNat : ℤ) = exponent - unit := Int.toNat_of_nonneg (by omega)
  rw [Nat.shiftLeft_eq, signed_mul]
  push_cast
  rw [mul_assoc, ← zpow_natCast, hsub, ← zpow_add₀ two_ne_zero, Int.sub_add_cancel]

/-- The order of finite data is that of their values. -/
theorem Datum.below_iff {d e : Datum} {p q : ℚ} (hd : d.value? = some p) (he : e.value? = some q) :
    (d.below true e = true ↔ p ≤ q) ∧ (d.below false e = true ↔ p < q) := by
  cases d with
  | nan => cases hd
  | infinite negative => cases hd
  | finite negative mantissa exponent =>
      cases e with
      | nan => cases he
      | infinite negative' => cases he
      | finite negative' mantissa' exponent' =>
          have hunit : (0 : ℚ) < 2 ^ min exponent exponent' := zpow_pos two_pos _
          cases hd
          cases he
          rw [← cast_units negative mantissa (min_le_left exponent exponent'),
            ← cast_units negative' mantissa' (min_le_right exponent exponent'),
            mul_le_mul_iff_left₀ hunit, mul_lt_mul_iff_left₀ hunit, Int.cast_le, Int.cast_lt]
          simp [below]

theorem atMost_iff {x y : Binary64} {p q : ℚ} (hx : x.Denotes p) (hy : y.Denotes q) :
    x.atMost y = true ↔ p ≤ q :=
  (Datum.below_iff (denotes_iff.1 hx) (denotes_iff.1 hy)).1

theorem less_iff {x y : Binary64} {p q : ℚ} (hx : x.Denotes p) (hy : y.Denotes q) :
    x.less y = true ↔ p < q :=
  (Datum.below_iff (denotes_iff.1 hx) (denotes_iff.1 hy)).2

end MessageExchange.Binary64
