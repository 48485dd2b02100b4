import MessageExchange.Conversion
import MessageExchange.Proofs.Binary64.Denotation
import MessageExchange.Proofs.Decimal.Numerals
import MessageExchange.Proofs.Text.Trimming

/-!
# Values as whole numbers

A text means the number that it `Spells`: it is a numeral for the number, with
white space around it.  A double means the number that its pattern denotes.
Either converts to what it means if that is a whole number of 64 bits (`IsLong`),
never to a number near it, and is refused if not (`asLong_of_meaning`).

The digits of a whole number spell it, whatever white space stands around them
(`spells_ofInt`).  So reading undoes writing.
-/

namespace MessageExchange.Value

open Decimal (Numeral)
open Text (Blank Framed Solid)

/-! ## Whole numbers of 64 bits -/

/-- The whole numbers that a word of 64 bits holds. -/
def IsLong (n : Int) : Prop := -9223372036854775808 ≤ n ∧ n ≤ 9223372036854775807

theorem isLong_toInt (word : Int64) : IsLong word.toInt := by
  have hlow := word.le_toInt
  have hhigh := word.toInt_lt
  rw [IsLong]
  omega

theorem asLong_eq_ok_iff {v : Value} {word : Int64} :
    v.asLong = .ok word ↔ v.long? = some word := by
  rw [asLong]
  cases v.long? <;> simp

theorem asLong_eq_error {v : Value} (h : v.long? = none) :
    v.asLong = .error (.noTypeConversion v.typeName "i64") := by
  rw [asLong, h]
  rfl

theorem toLong_standard (v : Value) : TypeConverter.standard.toLong v = v.long? := by
  show v.asLong.toOption = v.long?
  rw [asLong]
  cases v.long? <;> rfl

/-- If the words that a value is read as are the numbers of 64 bits that it means, then it converts
to exactly these, and a value that means none of them is refused. -/
theorem asLong_of_meaning {v : Value} (Means : Int → Prop)
    (h : ∀ word : Int64, v.long? = some word ↔ Means word.toInt) :
    (∀ n : Int, IsLong n ∧ Means n ↔ ∃ word : Int64, word.toInt = n ∧ v.asLong = .ok word) ∧
      ((∀ n : Int, IsLong n → ¬Means n) →
        v.asLong = .error (.noTypeConversion v.typeName "i64")) := by
  refine ⟨fun n => ⟨?_, ?_⟩, fun hnone => asLong_eq_error ?_⟩
  · rintro ⟨hlong, hmeans⟩
    obtain ⟨word, -, rfl⟩ := Decimal.exists_toInt64? hlong.1 hlong.2
    exact ⟨word, rfl, asLong_eq_ok_iff.2 ((h word).2 hmeans)⟩
  · rintro ⟨word, rfl, hok⟩
    exact ⟨isLong_toInt word, (h word).1 (asLong_eq_ok_iff.1 hok)⟩
  · rw [Option.eq_none_iff_forall_ne_some]
    intro word hread
    exact hnone _ (isLong_toInt word) ((h word).1 hread)

/-! ## Texts -/

/-- The text is a numeral for the number, with white space around it. -/
def Spells (s : String) (n : Int) : Prop := ∃ core, Framed core s.toList ∧ Numeral core n

theorem long?_text_eq_some_iff {s : String} {word : Int64} :
    (text s).long? = some word ↔ Spells s word.toInt := by
  rw [long?, Option.bind_eq_some_iff]
  constructor
  · rintro ⟨n, hread, hword⟩
    rw [Decimal.toInt64?_eq_some_iff.1 hword]
    exact ⟨_, Text.framed_trim _, Decimal.readInt?_eq_some_iff.1 hread⟩
  · rintro ⟨core, hframed, hnumeral⟩
    rw [Text.framed_iff.1 hframed]
    exact ⟨_, Decimal.readInt?_eq_some_iff.2 hnumeral, Decimal.toInt64?_eq_some_iff.2 rfl⟩

/-- A numeral is made of digits and a sign, so it holds no white space. -/
theorem solid_of_numeral {core : List Char} {n : Int} (h : Numeral core n) : Solid core := by
  cases h with
  | bare hdigits => exact Text.solid_of_isDigit hdigits.isDigit
  | plus hdigits => exact .cons rfl (Text.solid_of_isDigit hdigits.isDigit)
  | minus hdigits => exact .cons rfl (Text.solid_of_isDigit hdigits.isDigit)

/-- A text with a character other than white space, digits and signs spells no number. -/
theorem not_spells_of_mem {s : String} {c : Char} (hc : c ∈ s.toList)
    (hwhite : Text.isWhiteSpace c = false) (hdigit : c.isDigit = false) (hplus : c ≠ '+')
    (hminus : c ≠ '-') (n : Int) : ¬Spells s n := by
  rintro ⟨core, hframed, hnumeral⟩
  exact Decimal.notMem_of_numeral hnumeral hdigit hplus hminus (hframed.mem_core hc hwhite)

theorem spells_of_numeral {s : String} {n : Int} (h : Numeral s.toList n) : Spells s n :=
  ⟨_, Text.framed_iff.2 (Text.trim_eq_self (solid_of_numeral h).tight), h⟩

theorem Spells.unique {s : String} {m n : Int} (hm : Spells s m) (hn : Spells s n) : m = n := by
  obtain ⟨core, hframed, hnumeral⟩ := hm
  obtain ⟨core', hframed', hnumeral'⟩ := hn
  obtain rfl : core = core' := (Text.framed_iff.1 hframed).symm.trans (Text.framed_iff.1 hframed')
  have hread := Decimal.readInt?_of_numeral hnumeral
  rw [Decimal.readInt?_of_numeral hnumeral'] at hread
  exact (Option.some.inj hread).symm

/-- The digits of a word spell it, whatever white space stands around them. -/
theorem spells_ofInt (n : Int) {before after : String} (hbefore : Blank before.toList)
    (hafter : Blank after.toList) :
    Spells (before ++ String.ofList (Decimal.ofInt n) ++ after) n := by
  have hnumeral := Decimal.numeral_ofInt n
  refine ⟨_, ?_, hnumeral⟩
  rw [String.toList_append, String.toList_append, String.toList_ofList]
  exact .around hbefore (solid_of_numeral hnumeral).tight hafter

theorem asLong_text_ofInt (n : Int64) {before after : String} (hbefore : Blank before.toList)
    (hafter : Blank after.toList) :
    (text (before ++ String.ofList (Decimal.ofInt n.toInt) ++ after)).asLong = .ok n :=
  asLong_eq_ok_iff.2 (long?_text_eq_some_iff.2 (spells_ofInt n.toInt hbefore hafter))

/-- A text converts to exactly the whole number of 64 bits that it spells, and a text that spells
none is refused.  The text of a number is read back as the number, with any white space around it,
so the texts of two numbers differ. -/
theorem asLong_text :
    (∀ s : String,
      (∀ n : Int, IsLong n ∧ Spells s n ↔
        ∃ word : Int64, word.toInt = n ∧ (text s).asLong = .ok word) ∧
      ((∀ n : Int, IsLong n → ¬Spells s n) →
        (text s).asLong = .error (.noTypeConversion "String" "i64"))) ∧
      (∀ n : Int64, ∃ digits, (int n).asText = .ok digits ∧
        ∀ before after : String, Blank before.toList → Blank after.toList →
          (text (before ++ digits ++ after)).asLong = .ok n) ∧
      Function.Injective fun n : Int64 => (int n).asText := by
  refine ⟨fun s => asLong_of_meaning (Spells s) fun word => long?_text_eq_some_iff,
    fun n => ?_, ?_⟩
  · exact ⟨_, rfl, fun before after hbefore hafter => asLong_text_ofInt n hbefore hafter⟩
  · intro m n hsame
    have hblank : Blank "".toList := .nil
    have hm := asLong_text_ofInt m hblank hblank
    rw [Except.ok.inj hsame, asLong_text_ofInt n hblank hblank] at hm
    exact (Except.ok.inj hm).symm

/-- The least number of 64 bits is read back, and the number after the greatest is refused. -/
theorem asLong_text_at_limits :
    ((∀ n : Int, IsLong n → ¬Spells "9223372036854775808" n) ∧
        (text "9223372036854775808").asLong = .error (.noTypeConversion "String" "i64")) ∧
      Blank "\u2003 ".toList ∧ Blank "\n".toList ∧
        (text "\u2003 -9223372036854775808\n").asLong = .ok Int64.minValue := by
  have hnone (n : Int) (hlong : IsLong n) : ¬Spells "9223372036854775808" n := by
    rintro ⟨core, hframed, hnumeral⟩
    have hread : Decimal.readInt? (Text.trim "9223372036854775808".toList) = some n := by
      rw [Text.framed_iff.1 hframed, Decimal.readInt?_of_numeral hnumeral]
    have hn : n = 9223372036854775808 := (Option.some.inj hread).symm
    rw [IsLong] at hlong
    omega
  have hbefore : Blank "\u2003 ".toList := .cons rfl (.cons rfl .nil)
  have hafter : Blank "\n".toList := .cons rfl .nil
  obtain ⟨digits, hdigits, hread⟩ := asLong_text.2.1 Int64.minValue
  cases hdigits
  exact ⟨⟨hnone, (asLong_text.1 _).2 hnone⟩, hbefore, hafter, hread _ _ hbefore hafter⟩

/-! ## Doubles -/

/-- A whole number that a word holds is cut to that word. -/
theorem toInt64?_of_isLong {d : Binary64.Datum} {n : Int} (h : d.toInt? = some n)
    (hn : IsLong n) : Decimal.toInt64? n = some d.toInt64 := by
  have hmem : Int64.minValue.toInt ≤ n ∧ n ≤ Int64.maxValue.toInt := hn
  cases d with
  | nan => cases h
  | infinite negative => cases h
  | finite negative mantissa exponent =>
      obtain rfl := Option.some.inj (Option.ite_none_right_eq_some.1 h).2
      rw [Decimal.toInt64?, if_pos hmem, Binary64.Datum.toInt64, if_neg (Int.not_lt.2 hmem.1),
        if_neg (Int.not_lt.2 hmem.2)]

theorem toInt64?_of_not_isLong {n : Int} (h : ¬IsLong n) : Decimal.toInt64? n = none :=
  if_neg h

/-- The limits of the comparison are the least word and the number after the greatest one. -/
theorem between_limits_iff {x : Binary64} {n : Int} (h : x.Denotes n) :
    ((Binary64.ofInt64 Int64.minValue).atMost x && x.less (Binary64.ofInt64 Int64.maxValue)) =
      true ↔ IsLong n := by
  have hlow : (Binary64.ofInt64 Int64.minValue).Denotes (-9223372036854775808 : Int) :=
    Binary64.toInt?_eq_some_iff.1 (by decide)
  have hhigh : (Binary64.ofInt64 Int64.maxValue).Denotes (9223372036854775808 : Int) :=
    Binary64.toInt?_eq_some_iff.1 (by decide)
  rw [Bool.and_eq_true, Binary64.atMost_iff hlow h, Binary64.less_iff h hhigh, Int.cast_le,
    Int.cast_lt, IsLong]
  omega

/-- A double is read as the whole number that its pattern stands for, if a word holds that. -/
theorem long?_double (x : Binary64) : (double x).long? = x.toInt?.bind Decimal.toInt64? := by
  rw [long?]
  cases hread : x.toInt? with
  | none =>
      have hwhole : x.isWhole = false := by
        simpa [Binary64.toInt?, Binary64.Datum.toInt?, Binary64.isWhole] using hread
      rw [hwhole, Bool.and_false]
      rfl
  | some n =>
      have hdenotes := Binary64.toInt?_eq_some_iff.1 hread
      have hfinite : x.isFinite = true :=
        bne_iff_ne.2 (Binary64.exists_denotes_iff.1 ⟨_, hdenotes⟩)
      have hwhole : x.isWhole = true := (Option.ite_none_right_eq_some.1 hread).1
      rw [hfinite, hwhole, Bool.and_true, if_pos rfl, Option.bind_some]
      by_cases hlong : IsLong n
      · rw [if_pos ((between_limits_iff hdenotes).2 hlong), toInt64?_of_isLong hread hlong]
        rfl
      · rw [if_neg (mt (between_limits_iff hdenotes).1 hlong), toInt64?_of_not_isLong hlong]

theorem long?_double_eq_some_iff {x : Binary64} {word : Int64} :
    (double x).long? = some word ↔ x.Denotes word.toInt := by
  rw [long?_double, Option.bind_eq_some_iff]
  constructor
  · rintro ⟨n, hread, hword⟩
    rw [Decimal.toInt64?_eq_some_iff.1 hword]
    exact Binary64.toInt?_eq_some_iff.1 hread
  · intro h
    exact ⟨_, Binary64.toInt?_eq_some_iff.2 h, Decimal.toInt64?_eq_some_iff.2 rfl⟩

/-- A double converts to exactly the whole number of 64 bits that its pattern denotes.  Every
pattern but an infinity or NaN denotes one number.  An infinity, NaN, a number that is not whole,
such as every subnormal one, and a whole number that 64 bits do not hold are refused. -/
theorem asLong_double (x : Binary64) :
    (∀ n : Int, IsLong n ∧ x.Denotes n ↔
        ∃ word : Int64, word.toInt = n ∧ (double x).asLong = .ok word) ∧
      (x.exponentField ≠ 2047 → ∃! q, x.Denotes q) ∧
      (x.exponentField = 2047 → (double x).asLong = .error (.noTypeConversion "f64" "i64")) ∧
      (∀ q, x.Denotes q → (∀ n : Int, IsLong n → q ≠ n) →
        (double x).asLong = .error (.noTypeConversion "f64" "i64")) ∧
      (x.exponentField = 0 → x.fractionField ≠ 0 →
        (double x).asLong = .error (.noTypeConversion "f64" "i64")) ∧
      (double ⟨0x8000000000000000⟩).asLong = .ok 0 ∧
      (double ⟨0xC3E0000000000000⟩).asLong = .ok Int64.minValue ∧
      (double ⟨0x43E0000000000000⟩).asLong = .error (.noTypeConversion "f64" "i64") := by
  obtain ⟨hlong, herror⟩ :=
    asLong_of_meaning (fun n => x.Denotes n) fun word => long?_double_eq_some_iff
  refine ⟨hlong, fun hfinite => ?_, fun hmax => ?_, fun q hq hne => ?_, fun hzero hfraction => ?_,
    rfl, rfl, rfl⟩
  · obtain ⟨q, hq⟩ := Binary64.exists_denotes_iff.2 hfinite
    exact ⟨q, hq, fun p hp => hp.eq hq⟩
  · exact herror fun n _ hn => Binary64.exists_denotes_iff.1 ⟨_, hn⟩ hmax
  · exact herror fun n hn hdenotes => hne n hn (hq.eq hdenotes)
  · exact herror fun n _ => Binary64.not_denotes_of_subnormal hzero hfraction n

/-- A NaN, the least subnormal number, and the whole number after the greatest of 64 bits. -/
theorem asLong_double_of_refused :
    let nan : Binary64 := ⟨0x7FF8000000000000⟩
    let least : Binary64 := ⟨1⟩
    let beyond : Binary64 := ⟨0x43E0000000000000⟩
    (nan.exponentField = 2047 ∧
        (double nan).asLong = .error (.noTypeConversion "f64" "i64")) ∧
      (least.exponentField = 0 ∧ least.fractionField ≠ 0 ∧ (∃! q, least.Denotes q) ∧
        (double least).asLong = .error (.noTypeConversion "f64" "i64")) ∧
      beyond.Denotes (9223372036854775808 : Int) ∧
        (double beyond).asLong = .error (.noTypeConversion "f64" "i64") := by
  intro nan least beyond
  obtain ⟨-, -, hnan, -⟩ := asLong_double nan
  obtain ⟨-, hunique, -, -, hleast, -⟩ := asLong_double least
  obtain ⟨-, -, -, hbeyond, -⟩ := asLong_double beyond
  have hdenotes : beyond.Denotes (9223372036854775808 : Int) :=
    Binary64.toInt?_eq_some_iff.1 (by decide)
  have hmax : nan.exponentField = 2047 := by decide
  have hzero : least.exponentField = 0 := by decide
  have hfraction : least.fractionField ≠ 0 := by decide
  refine ⟨⟨hmax, hnan hmax⟩,
    ⟨hzero, hfraction, hunique (by rw [hzero]; decide), hleast hzero hfraction⟩,
    hdenotes, hbeyond _ hdenotes fun n hn heq => ?_⟩
  have hn' : (9223372036854775808 : Int) = n := Int.cast_injective heq
  rw [IsLong] at hn
  omega

end MessageExchange.Value
