import MessageExchange.Comparison
import MessageExchange.Proofs.Text.Encoding

/-!
# The order of compared values

A comparison of values carries a relation of texts over to values that may be absent
(`Related`).  Two absent values are related, an absent value and a present one are
not, and two present values are related if both have texts and these are.  A value
without a text is related to nothing.

If the relation of texts is a partial order then the relation of values is one as
well, on the values that have a text and the absent ones, up to equal texts
(`textOrder_of_eq_true_iff`).  Starting with a text and ending with a text are
partial orders, and reversing texts turns the one into the other.
-/

namespace MessageExchange

/-! ## Values and their texts -/

/-- There is no value, or it is null. -/
def Absent (value : Option Value) : Prop := value = none ∨ value = some .null

/-- There is a value other than null, and it converts to the text. -/
def HasText (converter : TypeConverter) (value : Option Value) (text : String) : Prop :=
  ∃ v, value = some v ∧ v ≠ .null ∧ converter.toText v = some text

/-- A relation of texts, carried over to values that may be absent. -/
inductive Related (converter : TypeConverter) (R : String → String → Prop) :
    Option Value → Option Value → Prop where
  | absent {left right : Option Value} :
      Absent left → Absent right → Related converter R left right
  | texts {left right : Option Value} {s t : String} :
      HasText converter left s → HasText converter right t → R s t →
      Related converter R left right

/-- A comparison that orders values by a relation of their texts, with the absent ones apart. -/
structure TextOrder (converter : TypeConverter)
    (compare : Option Value → Option Value → Bool) (R : String → String → Prop) : Prop where
  /-- Null on the left is as no value. -/
  null_left : ∀ value, compare (some .null) value = compare none value
  /-- Null on the right is as no value. -/
  null_right : ∀ value, compare value (some .null) = compare value none
  /-- Which values are related. -/
  eq_true_iff : ∀ left right, compare left right = true ↔
    (Absent left ∧ Absent right) ∨
      ∃ s t, HasText converter left s ∧ HasText converter right t ∧ R s t
  trans : ∀ first second third, compare first second = true → compare second third = true →
    compare first third = true
  /-- Which values are related to themselves. -/
  self_iff : ∀ value, compare value value = true ↔
    Absent value ∨ ∃ s, HasText converter value s
  /-- Values that are related both ways have one text. -/
  both_iff : ∀ left right, (compare left right = true ∧ compare right left = true) ↔
    (Absent left ∧ Absent right) ∨ ∃ s, HasText converter left s ∧ HasText converter right s
  /-- A present value without a text is related to nothing. -/
  unrelated : ∀ v : Value, v ≠ .null → converter.toText v = none → ∀ other,
    compare (some v) other = false ∧ compare other (some v) = false

variable {converter : TypeConverter} {value : Option Value} {s t : String}

theorem HasText.unique (hs : HasText converter value s) (ht : HasText converter value t) :
    s = t := by
  obtain ⟨v, rfl, -, hs⟩ := hs
  obtain ⟨w, hw, -, ht⟩ := ht
  rw [← Option.some.inj hw, hs] at ht
  exact Option.some.inj ht

theorem not_absent_of_ne_null {v : Value} (h : v ≠ .null) : ¬Absent (some v) := by
  rintro (hnone | hsome)
  · cases hnone
  · exact h (Option.some.inj hsome)

theorem HasText.not_absent (h : HasText converter value s) : ¬Absent value := by
  obtain ⟨v, rfl, hnull, -⟩ := h
  exact not_absent_of_ne_null hnull

theorem present?_eq_none_iff : present? value = none ↔ Absent value := by
  rw [present?, Option.filter_eq_none_iff, Absent]
  cases value with
  | none => simp
  | some v => simp [Value.isNull_iff]

theorem present?_eq_some_iff {v : Value} : present? value = some v ↔ value = some v ∧ v ≠ .null := by
  rw [present?, Option.filter_eq_some_iff]
  simp [← Value.isNull_iff]

/-! ## The relation of values -/

namespace Related

variable {R : String → String → Prop} {left right first second third : Option Value}

theorem iff_absent_or_texts :
    Related converter R left right ↔ (Absent left ∧ Absent right) ∨
      ∃ s t, HasText converter left s ∧ HasText converter right t ∧ R s t := by
  constructor
  · intro h
    cases h with
    | absent hleft hright => exact .inl ⟨hleft, hright⟩
    | texts hs ht hR => exact .inr ⟨_, _, hs, ht, hR⟩
  · rintro (⟨hleft, hright⟩ | ⟨s, t, hs, ht, hR⟩)
    · exact .absent hleft hright
    · exact .texts hs ht hR

/-- No value is related to no value only. -/
theorem absent_left_iff (h : Absent left) : Related converter R left right ↔ Absent right := by
  constructor
  · intro hrelated
    cases hrelated with
    | absent _ hright => exact hright
    | texts hs _ _ => exact absurd h hs.not_absent
  · exact .absent h

theorem absent_right_iff (h : Absent right) : Related converter R left right ↔ Absent left := by
  constructor
  · intro hrelated
    cases hrelated with
    | absent hleft _ => exact hleft
    | texts _ ht _ => exact absurd h ht.not_absent
  · exact fun hleft => .absent hleft h

theorem trans (hR : ∀ {r s t}, R r s → R s t → R r t) (h : Related converter R first second)
    (h' : Related converter R second third) : Related converter R first third := by
  cases h with
  | absent hfirst hsecond =>
      cases h' with
      | absent _ hthird => exact .absent hfirst hthird
      | texts hs _ _ => exact absurd hsecond hs.not_absent
  | texts hr hs hrs =>
      cases h' with
      | absent hsecond _ => exact absurd hsecond hs.not_absent
      | texts hs' ht hst =>
          obtain rfl := hs.unique hs'
          exact .texts hr ht (hR hrs hst)

theorem self_iff (hR : ∀ s, R s s) :
    Related converter R value value ↔ Absent value ∨ ∃ s, HasText converter value s := by
  constructor
  · intro h
    cases h with
    | absent habsent _ => exact .inl habsent
    | texts hs _ _ => exact .inr ⟨_, hs⟩
  · rintro (habsent | ⟨s, hs⟩)
    · exact .absent habsent habsent
    · exact .texts hs hs (hR s)

theorem both_iff (hrefl : ∀ s, R s s) (hantisymm : ∀ {s t}, R s t → R t s → s = t) :
    (Related converter R left right ∧ Related converter R right left) ↔
      (Absent left ∧ Absent right) ∨
        ∃ s, HasText converter left s ∧ HasText converter right s := by
  constructor
  · rintro ⟨h, h'⟩
    cases h with
    | absent hleft hright => exact .inl ⟨hleft, hright⟩
    | texts hs ht hst =>
        cases h' with
        | absent hright _ => exact absurd hright ht.not_absent
        | texts ht' hs' hts =>
            obtain rfl := hs.unique hs'
            obtain rfl := ht.unique ht'
            obtain rfl := hantisymm hst hts
            exact .inr ⟨_, hs, ht⟩
  · rintro (⟨hleft, hright⟩ | ⟨s, hs, ht⟩)
    · exact ⟨.absent hleft hright, .absent hright hleft⟩
    · exact ⟨.texts hs ht (hrefl s), .texts ht hs (hrefl s)⟩

/-- Between present values with texts, only the texts count. -/
theorem texts_iff (hs : HasText converter left s) (ht : HasText converter right t) :
    Related converter R left right ↔ R s t := by
  constructor
  · intro h
    cases h with
    | absent hleft _ => exact absurd hleft hs.not_absent
    | texts hs' ht' hR => rwa [hs.unique hs', ht.unique ht']
  · exact .texts hs ht

/-- A present value without a text is related to nothing. -/
theorem not_of_toText_eq_none {v : Value} (hnull : v ≠ .null)
    (hnone : converter.toText v = none) (other : Option Value) :
    ¬Related converter R (some v) other ∧ ¬Related converter R other (some v) := by
  have hpresent : ¬Absent (some v) := not_absent_of_ne_null hnull
  have hwithout (s : String) : ¬HasText converter (some v) s := by
    rintro ⟨w, hw, -, htext⟩
    rw [← Option.some.inj hw, hnone] at htext
    cases htext
  constructor
  · intro h
    cases h with
    | absent hleft _ => exact hpresent hleft
    | texts hs _ _ => exact hwithout _ hs
  · intro h
    cases h with
    | absent _ hright => exact hpresent hright
    | texts _ ht _ => exact hwithout _ ht

end Related

/-! ## Comparisons -/

theorem compareTexts_eq_true_iff {test : List Char → List Char → Bool} {left right : Option Value} :
    compareTexts converter test left right = true ↔
      Related converter (fun s t => test s.toList t.toList = true) left right := by
  rw [compareTexts]
  cases hleft : present? left with
  | none =>
      rw [Related.absent_left_iff (present?_eq_none_iff.1 hleft), ← present?_eq_none_iff]
      cases present? right <;> simp
  | some v =>
      cases hright : present? right with
      | none =>
          rw [Related.absent_right_iff (present?_eq_none_iff.1 hright), ← present?_eq_none_iff,
            hleft]
          simp
      | some w =>
          obtain ⟨rfl, hv⟩ := present?_eq_some_iff.1 hleft
          obtain ⟨rfl, hw⟩ := present?_eq_some_iff.1 hright
          dsimp only
          cases hs : converter.toText v with
          | none =>
              exact iff_of_false Bool.false_ne_true (Related.not_of_toText_eq_none hv hs _).1
          | some s =>
              cases ht : converter.toText w with
              | none =>
                  exact iff_of_false Bool.false_ne_true (Related.not_of_toText_eq_none hw ht _).2
              | some t => rw [Related.texts_iff ⟨v, rfl, hv, hs⟩ ⟨w, rfl, hw, ht⟩]

/-- A comparison that carries a partial order of texts over to values orders the values. -/
theorem textOrder_of_eq_true_iff {compare : Option Value → Option Value → Bool}
    {R : String → String → Prop}
    (hcompare : ∀ left right, compare left right = true ↔ Related converter R left right)
    (hrefl : ∀ s, R s s) (htrans : ∀ {r s t}, R r s → R s t → R r t)
    (hantisymm : ∀ {s t}, R s t → R t s → s = t) : TextOrder converter compare R where
  null_left value := by
    rw [Bool.eq_iff_iff, hcompare, hcompare, Related.absent_left_iff (.inr rfl),
      Related.absent_left_iff (.inl rfl)]
  null_right value := by
    rw [Bool.eq_iff_iff, hcompare, hcompare, Related.absent_right_iff (.inr rfl),
      Related.absent_right_iff (.inl rfl)]
  eq_true_iff left right := (hcompare left right).trans Related.iff_absent_or_texts
  trans first second third h h' :=
    (hcompare _ _).2 (Related.trans htrans ((hcompare _ _).1 h) ((hcompare _ _).1 h'))
  self_iff value := (hcompare _ _).trans (Related.self_iff hrefl)
  both_iff left right := by
    rw [hcompare, hcompare]
    exact Related.both_iff hrefl hantisymm
  unrelated v hnull hnone other := by
    obtain ⟨hleft, hright⟩ := Related.not_of_toText_eq_none (R := R) hnull hnone other
    rw [← hcompare, Bool.not_eq_true] at hleft hright
    exact ⟨hleft, hright⟩

/-! ## Starts and ends -/

theorem startsWith_iff {left right : Option Value} :
    startsWith converter left right = true ↔
      Related converter (fun s t => ∃ rest, s = t ++ rest) left right := by
  rw [startsWith, compareTexts_eq_true_iff]
  simp only [List.isPrefixOf_iff_prefix, Text.prefix_toList_iff]

theorem endsWith_iff {left right : Option Value} :
    endsWith converter left right = true ↔
      Related converter (fun s t => ∃ front, s = front ++ t) left right := by
  rw [endsWith, compareTexts_eq_true_iff]
  simp only [List.isSuffixOf_iff_suffix, Text.suffix_toList_iff]

/-- A text backwards. -/
def reversed (s : String) : String := String.ofList s.toList.reverse

theorem reversed_starts_iff {s t : String} :
    (∃ rest, reversed s = reversed t ++ rest) ↔ ∃ front, s = front ++ t := by
  rw [← Text.prefix_toList_iff, ← Text.suffix_toList_iff, reversed, reversed, String.toList_ofList,
    String.toList_ofList, List.reverse_prefix]

theorem textOrder_startsWith (converter : TypeConverter) :
    TextOrder converter (startsWith converter) (fun s t => ∃ rest, s = t ++ rest) := by
  refine textOrder_of_eq_true_iff (fun _ _ => startsWith_iff) ?_ ?_ ?_
  · exact fun s => ⟨"", String.append_empty.symm⟩
  · rintro r s t ⟨rest, rfl⟩ ⟨rest', rfl⟩
    exact ⟨rest' ++ rest, String.append_assoc⟩
  · intro s t hst hts
    rw [← Text.prefix_toList_iff] at hst hts
    exact String.toList_inj.1 (hts.eq_of_length_le hst.length_le)

theorem textOrder_endsWith (converter : TypeConverter) :
    TextOrder converter (endsWith converter) (fun s t => ∃ front, s = front ++ t) := by
  refine textOrder_of_eq_true_iff (fun _ _ => endsWith_iff) ?_ ?_ ?_
  · exact fun s => ⟨"", String.empty_append.symm⟩
  · rintro r s t ⟨front, rfl⟩ ⟨front', rfl⟩
    exact ⟨front ++ front', String.append_assoc.symm⟩
  · intro s t hst hts
    rw [← Text.suffix_toList_iff] at hst hts
    exact String.toList_inj.1 (hts.eq_of_length_le hst.length_le)

/-- Starting and ending with a text order the values that have a text, with the absent ones apart.
The characters and the bytes of the texts give one order, and ending with a text is starting with
it if both are read backwards. -/
theorem startsWith_endsWith_order (converter : TypeConverter) :
    TextOrder converter (startsWith converter) (fun s t => ∃ rest, s = t ++ rest) ∧
      TextOrder converter (endsWith converter) (fun s t => ∃ front, s = front ++ t) ∧
      (∀ s t : String,
        ((∃ rest, s = t ++ rest) ↔
          ∃ rest : ByteArray, s.toByteArray = t.toByteArray ++ rest) ∧
        ((∃ front, s = front ++ t) ↔
          ∃ front : ByteArray, s.toByteArray = front ++ t.toByteArray)) ∧
      ∀ (left right left' right' : Option Value) (s t : String),
        HasText converter left s → HasText converter right t →
          HasText converter left' (reversed s) → HasText converter right' (reversed t) →
            endsWith converter left right = startsWith converter left' right' := by
  refine ⟨textOrder_startsWith converter, textOrder_endsWith converter,
    fun s t => ⟨Text.exists_append_bytes_iff.symm, Text.exists_bytes_append_iff.symm⟩,
    fun left right left' right' s t hs ht hs' ht' => ?_⟩
  rw [Bool.eq_iff_iff, endsWith_iff, startsWith_iff, Related.texts_iff hs ht,
    Related.texts_iff hs' ht']
  exact reversed_starts_iff.symm

/-- A truth value that ends with a text and is read backwards, three texts in a row, and bytes that
are no text. -/
theorem startsWith_endsWith_order_of_values :
    let converter := TypeConverter.standard
    let binary : Value := .bytes ⟨#[0xff, 0xfe]⟩
    ((HasText converter (some (.bool true)) "true" ∧ HasText converter (some (.text "ue")) "ue" ∧
        HasText converter (some (.text "eurt")) (reversed "true") ∧
        HasText converter (some (.text "eu")) (reversed "ue")) ∧
      endsWith converter (some (.bool true)) (some (.text "ue")) =
        startsWith converter (some (.text "eurt")) (some (.text "eu"))) ∧
      (startsWith converter (some (.text "déjà")) (some (.text "déj")) = true ∧
        startsWith converter (some (.text "déj")) (some (.text "d")) = true ∧
        startsWith converter (some (.text "déjà")) (some (.text "d")) = true) ∧
      binary ≠ .null ∧ converter.toText binary = none ∧
        startsWith converter (some binary) (some binary) = false := by
  intro converter binary
  obtain ⟨hstarts, -, -, hreversed⟩ := startsWith_endsWith_order converter
  have hleft : HasText converter (some (.bool true)) "true" := ⟨_, rfl, nofun, rfl⟩
  have hright : HasText converter (some (.text "ue")) "ue" := ⟨_, rfl, nofun, rfl⟩
  have hleft' : HasText converter (some (.text "eurt")) (reversed "true") :=
    ⟨_, rfl, nofun, by decide⟩
  have hright' : HasText converter (some (.text "eu")) (reversed "ue") :=
    ⟨_, rfl, nofun, by decide⟩
  have hlong : startsWith converter (some (.text "déjà")) (some (.text "déj")) = true := by
    decide
  have hshort : startsWith converter (some (.text "déj")) (some (.text "d")) = true := by decide
  have hnone : converter.toText binary = none := by decide
  exact ⟨⟨⟨hleft, hright, hleft', hright'⟩, hreversed _ _ _ _ _ _ hleft hright hleft' hright'⟩,
    ⟨hlong, hshort, hstarts.trans _ _ _ hlong hshort⟩, nofun, hnone,
    (hstarts.unrelated binary nofun hnone _).1⟩

end MessageExchange
