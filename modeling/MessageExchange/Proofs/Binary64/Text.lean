import MessageExchange.Proofs.Binary64.Shortest

/-!
# What the text of a binary64 number says

A whole number up to `2 ^ 53` is written with its digits, since its last bit counts
at most one or it is `2 ^ 53` itself (`text_of_denotes`).  A number that is not whole
is written with a point (`point_mem_text`), and what is not finite with letters
(`letter_mem_text`).
-/

namespace MessageExchange.Binary64

open MessageExchange.Decimal (Scaled)

variable {x : Binary64}

/-- A pattern is decoded to no number, or to a mantissa that has all its bits if its last one counts
more than one. -/
theorem decode_cases (x : Binary64) :
    x.decode = .nan ∨ x.decode = .infinite x.isNegative ∨
      ∃ mantissa exponent, x.decode = .finite x.isNegative mantissa exponent ∧
        (0 < exponent → 2 ^ 52 ≤ mantissa) := by
  rw [decode]
  split
  · split
    · exact .inr (.inl rfl)
    · exact .inl rfl
  split
  · exact .inr (.inr ⟨_, _, rfl, fun hpos => absurd hpos (by decide)⟩)
  · refine .inr (.inr ⟨_, _, rfl, fun _ => ?_⟩)
    rw [Nat.shiftLeft_eq]
    omega

theorem toInt?_finite_neg (negative : Bool) (mantissa places : Nat) :
    (Datum.finite negative mantissa (-places)).toInt? =
      if mantissa % 2 ^ places = 0 then some (signed negative (mantissa / 2 ^ places)) else none := by
  rw [Datum.toInt?_finite]
  split
  · next hexponent =>
    obtain rfl : places = 0 := by omega
    simp [Nat.mod_one]
  · rw [Int.neg_neg, Int.toNat_natCast, Nat.shiftLeft_eq, Nat.one_mul, Nat.shiftRight_eq_div_pow]

/-- A mantissa that has all its bits is no more than `2 ^ 53` only if that is the number. -/
theorem shortest_of_full {mantissa places : Nat} (hplaces : 0 < places)
    (hfull : 2 ^ 52 ≤ mantissa) (hle : mantissa * 2 ^ places ≤ 2 ^ 53) :
    (shortest mantissa places).positional = Decimal.ofNat (mantissa * 2 ^ places) := by
  have htwo : 2 ≤ 2 ^ places := Nat.le_self_pow (Nat.ne_of_gt hplaces) 2
  have hpow : 2 ^ places = 2 ^ 1 :=
    Nat.le_antisymm (Nat.le_of_mul_le_mul_left
      (Nat.le_trans (Nat.mul_le_mul_right _ hfull) hle) (Nat.two_pow_pos 52)) htwo
  obtain rfl : places = 1 := Nat.pow_right_injective (Nat.le_refl 2) hpow
  obtain rfl : mantissa = 2 ^ 52 := by omega
  decide +kernel

/-- A whole number up to `2 ^ 53` is written with its digits. -/
theorem positional_of_toInt? {negative : Bool} {mantissa : Nat} {exponent n : Int}
    (hfull : 0 < exponent → 2 ^ 52 ≤ mantissa)
    (h : (Datum.finite negative mantissa exponent).toInt? = some n) (hn : n.natAbs ≤ 2 ^ 53) :
    (shortest mantissa exponent).positional = Decimal.ofNat n.natAbs ∧
      signed negative n.natAbs = n := by
  by_cases hpos : 0 < exponent
  · obtain ⟨places, rfl⟩ := Int.eq_ofNat_of_zero_le (Int.le_of_lt hpos)
    rw [Datum.toInt?_finite, if_pos (Int.le_of_lt hpos), Option.some_inj, Int.toNat_natCast,
      Nat.shiftLeft_eq] at h
    subst h
    rw [natAbs_signed] at hn ⊢
    exact ⟨shortest_of_full (by omega) (hfull hpos) hn, rfl⟩
  · obtain ⟨places, rfl⟩ : ∃ places : Nat, exponent = -places := ⟨exponent.natAbs, by omega⟩
    rw [toInt?_finite_neg, Option.ite_none_right_eq_some, Option.some_inj] at h
    obtain ⟨hmod, rfl⟩ := h
    rw [natAbs_signed]
    exact ⟨positional_shortest_of_whole hmod, rfl⟩

theorem toList_text (x : Binary64) : x.text.toList = x.decode.write Scaled.positional :=
  String.toList_ofList

theorem mem_withSign {negative : Bool} {text : List Char} {c : Char} (h : c ∈ text) :
    c ∈ withSign negative text := by
  rw [withSign]
  split
  · exact List.mem_cons_of_mem _ h
  · exact h

/-- A whole number up to `2 ^ 53` is written with its digits, after a minus sign if the sign bit
is set. -/
theorem text_of_denotes {n : Int} (h : x.Denotes n) (hn : n.natAbs ≤ 2 ^ 53) :
    x.text.toList = withSign x.isNegative (Decimal.ofNat n.natAbs) ∧
      signed x.isNegative n.natAbs = n := by
  have hint : x.decode.toInt? = some n := toInt?_eq_some_iff.2 h
  rw [toList_text]
  rcases x.decode_cases with hnan | hinfinite | ⟨mantissa, exponent, hfinite, hfull⟩
  · rw [hnan] at hint
    cases hint
  · rw [hinfinite] at hint
    cases hint
  · rw [hfinite] at hint
    obtain ⟨htext, hsigned⟩ := positional_of_toInt? hfull hint hn
    rw [hfinite, Datum.write, htext]
    exact ⟨rfl, hsigned⟩

/-- A number that is not whole is written with a point. -/
theorem point_mem_text {q : ℚ} (h : x.Denotes q) (hfraction : ∀ n : Int, q ≠ n) :
    '.' ∈ x.text.toList := by
  have hnone : x.decode.toInt? = none := by
    rw [Option.eq_none_iff_forall_ne_some]
    intro n hn
    exact hfraction n (h.eq (toInt?_eq_some_iff.1 hn))
  rw [denotes_iff] at h
  rw [toList_text]
  rcases x.decode_cases with hnan | hinfinite | ⟨mantissa, exponent, hfinite, -⟩
  · rw [hnan] at h
    cases h
  · rw [hinfinite] at h
    cases h
  · rw [hfinite] at hnone ⊢
    by_cases hpos : 0 ≤ exponent
    · rw [Datum.toInt?_finite, if_pos hpos] at hnone
      cases hnone
    · obtain ⟨places, rfl⟩ : ∃ places : Nat, exponent = -places := ⟨exponent.natAbs, by omega⟩
      rw [toInt?_finite_neg] at hnone
      have hmod : mantissa % 2 ^ places ≠ 0 := fun hzero => by
        rw [if_pos hzero] at hnone
        cases hnone
      exact mem_withSign (Scaled.point_mem_positional (exponent_shortest_neg hmod))

/-- What is not finite is written with letters. -/
theorem letter_mem_text (h : x.exponentField = 2047) :
    'N' ∈ x.text.toList ∨ 'i' ∈ x.text.toList := by
  rw [toList_text, decode, if_pos h]
  split
  · exact .inr (mem_withSign (by decide))
  · exact .inl (by decide)

end MessageExchange.Binary64
