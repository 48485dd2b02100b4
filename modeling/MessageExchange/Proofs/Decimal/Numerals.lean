import MessageExchange.Decimal.Integer
import Mathlib.Data.List.Induction

/-!
# Numerals

`Numeral text n` is the language that whole numbers are read in: an optional sign
and one or more ASCII digits.  A digit put after others counts ten times what
stands before it and itself, so leading zeros count nothing and there may be any
number of them.

A text is a numeral for at most one number, and `readInt?` finds it
(`readInt?_eq_some_iff`).
-/

namespace MessageExchange.Decimal

/-- One or more ASCII digits, and the number that they stand for. -/
inductive Digits : List Char → Nat → Prop where
  | one {d : Nat} : d < 10 → Digits [d.digitChar] d
  /-- One more digit after the others. -/
  | snoc {digits : List Char} {n d : Nat} :
      Digits digits n → d < 10 → Digits (digits ++ [d.digitChar]) (10 * n + d)

/-- An optional sign with digits after it, and the number that they stand for. -/
inductive Numeral : List Char → Int → Prop where
  | bare {digits : List Char} {n : Nat} : Digits digits n → Numeral digits n
  | plus {digits : List Char} {n : Nat} : Digits digits n → Numeral ('+' :: digits) n
  | minus {digits : List Char} {n : Nat} : Digits digits n → Numeral ('-' :: digits) (-n)

/-! ## Digits -/

theorem exists_digitChar_of_isDigit {c : Char} (h : c.isDigit = true) :
    ∃ d < 10, c = d.digitChar := by
  have hbounds : 48 ≤ c.toNat ∧ c.toNat ≤ 57 := Char.isDigit_iff_toNat.1 h
  have hlt : c.toNat - 48 < 10 := by omega
  refine ⟨c.toNat - 48, hlt, Char.toNat_inj.1 ?_⟩
  rw [Nat.toNat_digitChar_of_lt_ten hlt]
  omega

theorem isDigit_digitChar {d : Nat} (h : d < 10) : d.digitChar.isDigit = true := by
  rw [Nat.isDigit_digitChar, decide_eq_true h]

theorem ofDigitChars_snoc (digits : List Char) {d : Nat} (h : d < 10) :
    Nat.ofDigitChars 10 (digits ++ [d.digitChar]) 0 = 10 * Nat.ofDigitChars 10 digits 0 + d := by
  rw [Nat.ofDigitChars_append, Nat.ofDigitChars_cons_digitChar_of_lt_ten h, Nat.ofDigitChars_nil]

theorem Digits.ne_nil {digits : List Char} {n : Nat} (h : Digits digits n) : digits ≠ [] := by
  cases h with
  | one _ => exact List.cons_ne_nil _ _
  | snoc _ _ => exact List.append_ne_nil_of_right_ne_nil _ (List.cons_ne_nil _ _)

theorem Digits.isDigit {digits : List Char} {n : Nat} (h : Digits digits n) :
    ∀ c ∈ digits, c.isDigit = true := by
  induction h with
  | one hd =>
      intro c hc
      rw [List.mem_singleton.1 hc, isDigit_digitChar hd]
  | snoc _ hd ih =>
      intro c hc
      rcases List.mem_append.1 hc with hc | hc
      · exact ih c hc
      · rw [List.mem_singleton.1 hc, isDigit_digitChar hd]

theorem Digits.ofDigitChars {digits : List Char} {n : Nat} (h : Digits digits n) :
    Nat.ofDigitChars 10 digits 0 = n := by
  induction h with
  | @one d hd =>
      have hsnoc := ofDigitChars_snoc [] hd
      rwa [Nat.ofDigitChars_nil, Nat.mul_zero, Nat.zero_add, List.nil_append] at hsnoc
  | snoc _ hd ih => rw [ofDigitChars_snoc _ hd, ih]

/-- Digits stand for the number that is read off them, by induction on the last one. -/
theorem digits_of_isDigit (digits : List Char) (hne : digits ≠ [])
    (hall : ∀ c ∈ digits, c.isDigit = true) : Digits digits (Nat.ofDigitChars 10 digits 0) := by
  induction digits using List.reverseRecOn with
  | nil => exact absurd rfl hne
  | append_singleton digits c ih =>
      obtain ⟨d, hd, rfl⟩ := exists_digitChar_of_isDigit (hall c List.mem_concat_self)
      rw [ofDigitChars_snoc digits hd]
      by_cases hdigits : digits = []
      · subst hdigits
        rw [Nat.ofDigitChars_nil, Nat.mul_zero, Nat.zero_add]
        exact .one hd
      · exact .snoc (ih hdigits fun e he => hall e (List.mem_append_left _ he)) hd

theorem readNat?_eq_some_iff {text : List Char} {n : Nat} :
    readNat? text = some n ↔ Digits text n := by
  constructor
  · intro h
    rw [readNat?, Option.ite_none_right_eq_some, List.all_eq_true] at h
    obtain ⟨⟨hne, hall⟩, hn⟩ := h
    rw [← Option.some.inj hn]
    exact digits_of_isDigit text hne hall
  · intro h
    rw [readNat?, if_pos ⟨h.ne_nil, List.all_eq_true.2 h.isDigit⟩, h.ofDigitChars]

/-! ## Signs -/

theorem readInt?_plus (digits : List Char) :
    readInt? ('+' :: digits) = (readNat? digits).map fun n : Nat => (n : Int) := rfl

theorem readInt?_minus (digits : List Char) :
    readInt? ('-' :: digits) = (readNat? digits).map fun n : Nat => -(n : Int) := by
  rw [readInt?]
  cases readNat? digits <;> rfl

theorem readInt?_of_numeral {text : List Char} {n : Int} (h : Numeral text n) :
    readInt? text = some n := by
  cases h with
  | @bare _ n h =>
      obtain ⟨c, rest, rfl⟩ := List.exists_cons_of_ne_nil h.ne_nil
      rw [readInt?_of_isDigit (h.isDigit c List.mem_cons_self), readNat?_eq_some_iff.2 h]
      rfl
  | plus h => rw [readInt?_plus, readNat?_eq_some_iff.2 h, Option.map_some]
  | minus h => rw [readInt?_minus, readNat?_eq_some_iff.2 h, Option.map_some]

theorem numeral_of_readInt? {text : List Char} {n : Int} (h : readInt? text = some n) :
    Numeral text n := by
  unfold readInt? at h
  split at h
  case h_1 digits =>
    have hminus : readInt? ('-' :: digits) = some n := h
    rw [readInt?_minus] at hminus
    obtain ⟨m, hm, rfl⟩ := Option.map_eq_some_iff.1 hminus
    exact .minus (readNat?_eq_some_iff.1 hm)
  case h_2 digits =>
    obtain ⟨m, hm, rfl⟩ := Option.map_eq_some_iff.1 h
    exact .plus (readNat?_eq_some_iff.1 hm)
  case h_3 =>
    obtain ⟨m, hm, rfl⟩ := Option.map_eq_some_iff.1 h
    exact .bare (readNat?_eq_some_iff.1 hm)

theorem readInt?_eq_some_iff {text : List Char} {n : Int} :
    readInt? text = some n ↔ Numeral text n :=
  ⟨numeral_of_readInt?, readInt?_of_numeral⟩

theorem numeral_ofInt (n : Int) : Numeral (ofInt n) n :=
  readInt?_eq_some_iff.1 (readInt?_ofInt n)

/-- A numeral holds nothing but digits and a sign. -/
theorem notMem_of_numeral {text : List Char} {n : Int} (h : Numeral text n) {c : Char}
    (hdigit : c.isDigit = false) (hplus : c ≠ '+') (hminus : c ≠ '-') : c ∉ text := by
  have hdigits {digits : List Char} {m : Nat} (h : Digits digits m) : c ∉ digits := fun hmem =>
    Bool.false_ne_true (hdigit.symm.trans (h.isDigit c hmem))
  cases h with
  | bare h => exact hdigits h
  | plus h => exact List.not_mem_cons_of_ne_of_not_mem hplus (hdigits h)
  | minus h => exact List.not_mem_cons_of_ne_of_not_mem hminus (hdigits h)

/-! ## Words -/

theorem toInt32?_eq_some_iff {n : Int} {word : Int32} :
    toInt32? n = some word ↔ word.toInt = n := by
  rw [toInt32?, Option.ite_none_right_eq_some, Int32.toInt_minValue, Int32.toInt_maxValue]
  constructor
  · rintro ⟨⟨hlow, hhigh⟩, hword⟩
    rw [← Option.some.inj hword]
    exact Int32.toInt_ofInt_of_le hlow (by omega)
  · rintro rfl
    have hlow := word.le_toInt
    have hhigh := word.toInt_lt
    exact ⟨⟨hlow, by omega⟩, congrArg some word.ofInt_toInt⟩

theorem toInt64?_eq_some_iff {n : Int} {word : Int64} :
    toInt64? n = some word ↔ word.toInt = n := by
  rw [toInt64?, Option.ite_none_right_eq_some, Int64.toInt_minValue, Int64.toInt_maxValue]
  constructor
  · rintro ⟨⟨hlow, hhigh⟩, hword⟩
    rw [← Option.some.inj hword]
    exact Int64.toInt_ofInt_of_le hlow (by omega)
  · rintro rfl
    have hlow := word.le_toInt
    have hhigh := word.toInt_lt
    exact ⟨⟨hlow, by omega⟩, congrArg some word.ofInt_toInt⟩

theorem exists_toInt64? {n : Int} (hlow : -9223372036854775808 ≤ n)
    (hhigh : n ≤ 9223372036854775807) : ∃ word, toInt64? n = some word ∧ word.toInt = n := by
  have hword : (Int64.ofInt n).toInt = n := Int64.toInt_ofInt_of_le hlow (by omega)
  exact ⟨_, toInt64?_eq_some_iff.2 hword, hword⟩

end MessageExchange.Decimal
