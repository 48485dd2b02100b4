import MessageExchange.Proofs.Binary64.Text
import MessageExchange.Proofs.Conversion.Long

/-!
# Whole numbers by way of their texts

A value may be read as a whole number directly, or written as a text first and read
from that.  Both ways agree on the integers, and on the doubles whose value is not
whole or no greater than `2 ^ 53` (`toLong_of_toText`).  The text of such a double
spells what the double denotes, if that is a whole number (`spells_text_of_denotes`),
and nothing else (`not_spells_text`).
-/

namespace MessageExchange.Value

open Decimal (Numeral)

/-! ## Doubles -/

theorem numeral_withSign (negative : Bool) (n : Nat) :
    Numeral (Binary64.withSign negative (Decimal.ofNat n)) (Binary64.signed negative n) := by
  have hdigits := Decimal.readNat?_eq_some_iff.1 (Decimal.readNat?_ofNat n)
  cases negative with
  | false => exact .bare hdigits
  | true => exact .minus hdigits

variable {x : Binary64}

/-- The text of a double spells the whole numbers up to `2 ^ 53` that the double denotes. -/
theorem spells_text_of_denotes {n : Int} (h : x.Denotes n) (hn : n.natAbs ≤ 2 ^ 53) :
    Spells x.text n := by
  obtain ⟨htext, hsigned⟩ := Binary64.text_of_denotes h hn
  have hnumeral := numeral_withSign x.isNegative n.natAbs
  rw [← htext, hsigned] at hnumeral
  exact spells_of_numeral hnumeral

/-- The text of a double that denotes no whole number spells none. -/
theorem not_spells_text (h : ∀ n : Int, ¬x.Denotes n) (n : Int) : ¬Spells x.text n := by
  by_cases hmax : x.exponentField = 2047
  · rcases Binary64.letter_mem_text hmax with hletter | hletter
    · exact not_spells_of_mem hletter (by decide) (by decide) (by decide) (by decide) n
    · exact not_spells_of_mem hletter (by decide) (by decide) (by decide) (by decide) n
  · obtain ⟨q, hq⟩ := Binary64.exists_denotes_iff.2 hmax
    have hpoint : '.' ∈ x.text.toList :=
      Binary64.point_mem_text hq fun m hm => h m (hm ▸ hq)
    exact not_spells_of_mem hpoint (by decide) (by decide) (by decide) (by decide) n

theorem long?_text_text (h : ∀ n : Int, x.Denotes n → n.natAbs ≤ 2 ^ 53) :
    (text x.text).long? = (double x).long? := by
  apply Option.ext
  intro word
  rw [long?_text_eq_some_iff, long?_double_eq_some_iff]
  constructor
  · intro hspells
    by_cases hwhole : ∃ n : Int, x.Denotes n
    · obtain ⟨n, hn⟩ := hwhole
      rwa [hspells.unique (spells_text_of_denotes hn (h n hn))]
    · exact absurd hspells (not_spells_text (not_exists.1 hwhole) _)
  · exact fun hdenotes => spells_text_of_denotes hdenotes (h _ hdenotes)

/-- An integer, and a double that is not whole or no greater than `2 ^ 53`, has a text that is read
as the number that the value itself is read as, or is refused as the value itself is.  A whole
number is written with its digits and any other with a point.  Negative zero keeps its sign as a text
and is read as zero. -/
theorem toLong_of_toText :
    (∀ n : Int64, ∃ s, TypeConverter.standard.toText (int n) = some s ∧
      TypeConverter.standard.toLong (text s) = some n ∧
      TypeConverter.standard.toLong (int n) = some n) ∧
    (∀ x : Binary64, (∀ n : Int, x.Denotes n → n.natAbs ≤ 2 ^ 53) →
      ∃ s, TypeConverter.standard.toText (double x) = some s ∧
        TypeConverter.standard.toLong (text s) = TypeConverter.standard.toLong (double x) ∧
        (∀ n : Int, x.Denotes n →
          s.toList = Binary64.withSign x.isNegative (Decimal.ofNat n.natAbs) ∧
          ∃ word : Int64, word.toInt = n ∧
            TypeConverter.standard.toLong (double x) = some word) ∧
        ((∀ n : Int, ¬x.Denotes n) → TypeConverter.standard.toLong (double x) = none) ∧
        ∀ q, x.Denotes q → (∀ n : Int, q ≠ n) → '.' ∈ s.toList) ∧
    TypeConverter.standard.toText (double ⟨0x8000000000000000⟩) = some "-0" ∧
    TypeConverter.standard.toLong (text "-0") = some 0 ∧
    TypeConverter.standard.toLong (double ⟨0x8000000000000000⟩) = some 0 := by
  simp only [toLong_standard]
  refine ⟨fun n => ⟨_, rfl, ?_, rfl⟩, fun x hle => ⟨x.text, rfl, long?_text_text hle, ?_, ?_, ?_⟩,
    rfl, rfl, rfl⟩
  · refine long?_text_eq_some_iff.2 (spells_of_numeral ?_)
    rw [String.toList_ofList]
    exact Decimal.numeral_ofInt n.toInt
  · intro n hn
    have hbound := hle n hn
    obtain ⟨word, -, rfl⟩ := Decimal.exists_toInt64? (n := n) (by omega) (by omega)
    exact ⟨(Binary64.text_of_denotes hn hbound).1, word, rfl, long?_double_eq_some_iff.2 hn⟩
  · intro hnone
    rw [Option.eq_none_iff_forall_ne_some]
    exact fun word hword => hnone _ (long?_double_eq_some_iff.1 hword)
  · exact fun q hq => Binary64.point_mem_text hq

/-- The greatest number that is covered, one half, and a NaN. -/
theorem toLong_of_toText_at_limit :
    let limit : Binary64 := ⟨0x4340000000000000⟩
    let half : Binary64 := ⟨0x3FE0000000000000⟩
    let nan : Binary64 := ⟨0x7FF8000000000000⟩
    (limit.Denotes (9007199254740992 : Int) ∧
      ∃ s, TypeConverter.standard.toText (double limit) = some s ∧
        s.toList = Decimal.ofNat 9007199254740992 ∧
        TypeConverter.standard.toLong (text s) = some 9007199254740992) ∧
    ((half.Denotes (1 / 2) ∧ ∀ n : Int, ¬half.Denotes n) ∧
      ∃ s, TypeConverter.standard.toText (double half) = some s ∧ '.' ∈ s.toList ∧
        TypeConverter.standard.toLong (text s) = none) ∧
    (∀ n : Int, ¬nan.Denotes n) ∧
      ∃ s, TypeConverter.standard.toText (double nan) = some s ∧
        TypeConverter.standard.toLong (text s) = none := by
  intro limit half nan
  have hlimit : limit.Denotes (9007199254740992 : Int) := Binary64.toInt?_eq_some_iff.1 (by decide)
  have hnone {x : Binary64} (h : x.toInt? = none) (n : Int) : ¬x.Denotes n := by
    rw [← Binary64.toInt?_eq_some_iff, h]
    exact nofun
  have hhalf : ∀ n : Int, ¬half.Denotes n := hnone (by decide)
  have hnan : ∀ n : Int, ¬nan.Denotes n := hnone (by decide)
  have hdenotes : half.Denotes (1 / 2) := by
    have hdecode : half.decode = .finite false (2 ^ 52) (-53) := by decide
    rw [Binary64.denotes_iff, hdecode, Binary64.Datum.value?, Binary64.signed]
    norm_num
  obtain ⟨-, hdoubles, -⟩ := toLong_of_toText
  refine ⟨⟨hlimit, ?_⟩, ⟨⟨hdenotes, hhalf⟩, ?_⟩, hnan, ?_⟩
  · obtain ⟨s, hs, hsame, hwhole, -⟩ := hdoubles limit fun n hn => by
      rw [Int.cast_injective (hn.eq hlimit)]
      decide
    have hsign : limit.isNegative = false := by decide
    have habs : Int.natAbs 9007199254740992 = 9007199254740992 := by decide
    have hlong : TypeConverter.standard.toLong (double limit) = some 9007199254740992 := by decide
    have hplain (digits : List Char) : Binary64.withSign false digits = digits := rfl
    obtain ⟨htext, -⟩ := hwhole _ hlimit
    rw [hsign, habs, hplain] at htext
    exact ⟨s, hs, htext, hsame.trans hlong⟩
  · obtain ⟨s, hs, hsame, -, hnone, hpoint⟩ := hdoubles half fun n hn => absurd hn (hhalf n)
    exact ⟨s, hs, hpoint _ hdenotes fun n hn => hhalf n (hn ▸ hdenotes), hsame.trans (hnone hhalf)⟩
  · obtain ⟨s, hs, hsame, -, hnone, -⟩ := hdoubles nan fun n hn => absurd hn (hnan n)
    exact ⟨s, hs, hsame.trans (hnone hnan)⟩

end MessageExchange.Value
