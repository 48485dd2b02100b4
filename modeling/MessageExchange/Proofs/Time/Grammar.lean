import MessageExchange.Proofs.Decimal.Numerals
import MessageExchange.Proofs.Time.Stamps

/-!
# Every date and time text

What has fields is the text of a stamp, with any number of digits after the ninth
place of its fraction, and the fields are those of the stamp
(`read?_eq_some_iff`).

The way back from what is read to the text follows the reader field by field: what
takes a number, a character, a fraction or an offset off a text says what the text
began with.
-/

namespace MessageExchange.Decimal

/-- The digits of a number are its last places, as many as there are digits. -/
theorem Digits.places_eq {digits : List Char} {n : Nat} (h : Digits digits n) :
    places digits.length n = digits ∧ n < 10 ^ digits.length := by
  induction h with
  | @one d hd =>
      refine ⟨?_, hd⟩
      rw [List.length_singleton, places, Nat.mod_eq_of_lt hd]
      rfl
  | @snoc digits n d _ hd ih =>
      obtain ⟨hplaces, hlt⟩ := ih
      have hdiv : (10 * n + d) / 10 = n := by omega
      have hmod : (10 * n + d) % 10 = d := by omega
      rw [List.length_append, List.length_singleton]
      refine ⟨by rw [places, hdiv, hmod, hplaces], ?_⟩
      rw [Nat.pow_succ]
      omega

end MessageExchange.Decimal

namespace MessageExchange.Time

open Decimal (Digits places)

/-! ## What was taken off a text -/

theorem takeDigits?_eq_some {count n : Nat} {text rest : List Char}
    (h : takeDigits? count text = some (n, rest)) :
    n < 10 ^ count ∧ text = places count n ++ rest := by
  simp only [takeDigits?] at h
  split at h
  · next hlength =>
    obtain ⟨m, hread, heq⟩ := Option.map_eq_some_iff.1 h
    cases heq
    obtain ⟨hplaces, hlt⟩ := (Decimal.readNat?_eq_some_iff.1 hread).places_eq
    rw [hlength] at hplaces hlt
    exact ⟨hlt, by rw [hplaces, List.take_append_drop]⟩
  · cases h

theorem takeOneOf?_eq_some {allowed text rest : List Char} {c : Char}
    (h : takeOneOf? allowed text = some (c, rest)) : c ∈ allowed ∧ text = c :: rest := by
  cases text with
  | nil => cases h
  | cons d tail =>
      simp only [takeOneOf?] at h
      split at h
      · next hmem =>
        cases h
        exact ⟨hmem, rfl⟩
      · cases h

/-! ## Fractions of any length -/

/-- Digits after the ninth place of a fraction.  They count nothing. -/
structure Excess (fraction : Option Fraction) (digits : List Char) : Prop where
  isDigit : ∀ c ∈ digits, c.isDigit = true
  /-- Nine places stand before them. -/
  full : digits ≠ [] → ∃ places, fraction = some places ∧ places.width = 9

theorem excess_nil (fraction : Option Fraction) : Excess fraction [] where
  isDigit _ hc := nomatch hc
  full hne := absurd rfl hne

theorem nanosOfDigits_take (digits : List Char) :
    nanosOfDigits (digits.take 9) = nanosOfDigits digits := by
  rw [nanosOfDigits, nanosOfDigits, List.take_take, Nat.min_self]

theorem nanosOfDigits_excess {fraction : Fraction} {excess : List Char}
    (h : Excess (some fraction) excess) :
    nanosOfDigits (places fraction.width fraction.count ++ excess) =
      fractionNanos (some fraction) := by
  have hplaces := nanosOfDigits_places fraction.width_mem fraction.count_lt
  cases hexcess : excess with
  | nil => rw [List.append_nil, hplaces]; rfl
  | cons c rest =>
      obtain ⟨fraction', heq, hwidth⟩ := h.full (hexcess ▸ List.cons_ne_nil c rest)
      cases heq
      have htake : (places fraction.width fraction.count ++ c :: rest).take 9 =
          places fraction.width fraction.count := by
        have hlength := Decimal.length_places fraction.width fraction.count
        rw [hwidth] at hlength
        exact List.take_left' (hwidth ▸ hlength)
      rw [← nanosOfDigits_take, htake, hplaces]
      rfl

/-- A fraction is read with the digits in excess, up to the offset. -/
theorem takeFraction?_excess {fraction : Option Fraction} {excess : List Char}
    (h : Excess fraction excess) (offset : Offset) :
    takeFraction? (fractionText fraction ++ (excess ++ offset.text)) =
      some (fractionNanos fraction, offset.text) := by
  cases fraction with
  | none =>
      have hnone : excess = [] := by
        by_contra hne
        obtain ⟨fraction', heq, -⟩ := h.full hne
        cases heq
      rw [hnone]
      exact takeFraction?_text none offset
  | some fraction =>
      obtain ⟨c, rest, htext, hmark, -⟩ := offset.text_eq_cons
      have hdigits : ∀ d ∈ places fraction.width fraction.count ++ excess, d.isDigit = true := by
        intro d hd
        rcases List.mem_append.1 hd with hd | hd
        · exact Decimal.isDigit_of_mem_places hd
        · exact h.isDigit d hd
      have hne : places fraction.width fraction.count ++ excess ≠ [] :=
        List.append_ne_nil_of_left_ne_nil (Decimal.places_ne_nil fraction.width_mem.1 _) _
      rw [htext, fractionText, List.cons_append, ← List.append_assoc,
        takeFraction?_digits hne hdigits (mark_of_mem hmark).1, nanosOfDigits_excess h]

/-- Digits are the places of a fraction and the digits in excess. -/
theorem exists_excess_of_isDigit {digits : List Char} (hne : digits ≠ [])
    (hdigits : ∀ c ∈ digits, c.isDigit = true) :
    ∃ fraction excess, Excess (some fraction) excess ∧
      digits = places fraction.width fraction.count ++ excess := by
  have hpos : 0 < digits.length := List.length_pos_iff.2 hne
  have hlength : (digits.take 9).length = min 9 digits.length := List.length_take
  have hfirst : digits.take 9 ≠ [] := List.ne_nil_of_length_pos (by omega)
  have hread := Decimal.digits_of_isDigit (digits.take 9) hfirst fun c hc =>
    hdigits c (List.mem_of_mem_take hc)
  obtain ⟨hplaces, hlt⟩ := hread.places_eq
  refine ⟨⟨_, _, by omega, hlt⟩, digits.drop 9, ⟨?_, ?_⟩, ?_⟩
  · intro c hc
    exact hdigits c (List.mem_of_mem_drop hc)
  · intro hdrop
    have hlong := List.length_pos_iff.2 hdrop
    rw [List.length_drop] at hlong
    have hwidth : (digits.take 9).length = 9 := by omega
    exact ⟨_, rfl, hwidth⟩
  · rw [hplaces, List.take_append_drop]

theorem takeFraction?_eq_some {text rest : List Char} {nanos : Nat}
    (h : takeFraction? text = some (nanos, rest)) :
    ∃ fraction excess, Excess fraction excess ∧
      text = fractionText fraction ++ (excess ++ rest) ∧ nanos = fractionNanos fraction := by
  unfold takeFraction? at h
  split at h
  case h_1 tail =>
    split at h
    case h_1 => cases h
    case h_2 hne =>
      cases h
      have hdigits : ∀ c ∈ tail.takeWhile Char.isDigit, c.isDigit = true := fun c hc =>
        List.mem_takeWhile_imp hc
      obtain ⟨fraction, excess, hexcess, heq⟩ := exists_excess_of_isDigit hne hdigits
      refine ⟨some fraction, excess, hexcess, ?_, ?_⟩
      · rw [fractionText, List.cons_append, ← List.append_assoc, ← heq,
          List.takeWhile_append_dropWhile]
      · rw [heq, nanosOfDigits_excess hexcess]
  case h_2 =>
    cases h
    exact ⟨none, [], excess_nil none, rfl, rfl⟩

/-! ## Offsets and stamps -/

theorem takeOffset?_eq_some {text : List Char} {parts : Bool × Nat × Nat}
    (h : takeOffset? text = some (parts, [])) :
    ∃ offset : Offset, text = offset.text ∧ parts = offset.parts := by
  obtain ⟨⟨sign, rest⟩, hsign, hclock⟩ := Option.bind_eq_some_iff.1 h
  obtain ⟨hmem, htext⟩ := takeOneOf?_eq_some hsign
  rw [htext]
  by_cases hletter : sign = 'Z' ∨ sign = 'z'
  · cases (if_pos hletter).symm.trans hclock
    exact ⟨.universal sign (by simpa using hletter), rfl, rfl⟩
  · obtain ⟨⟨hour, afterHour⟩, hhour, hclock⟩ :=
      Option.bind_eq_some_iff.1 ((if_neg hletter).symm.trans hclock)
    obtain ⟨⟨colon, afterColon⟩, hcolon, hclock⟩ := Option.bind_eq_some_iff.1 hclock
    obtain ⟨⟨minute, afterMinute⟩, hminute, hclock⟩ := Option.bind_eq_some_iff.1 hclock
    cases hclock
    obtain ⟨hhourlt, rfl⟩ := takeDigits?_eq_some hhour
    obtain ⟨hmark, rfl⟩ := takeOneOf?_eq_some hcolon
    obtain ⟨hminutelt, rfl⟩ := takeDigits?_eq_some hminute
    obtain rfl := List.mem_singleton.1 hmark
    rw [List.append_nil]
    by_cases hplus : sign = '+'
    · subst hplus
      exact ⟨.ahead ⟨hour, hhourlt⟩ ⟨minute, hminutelt⟩, rfl, rfl⟩
    · have hminus : sign ∈ ['-', '−'] := by
        simp only [List.mem_cons, List.not_mem_nil, or_false] at hmem hletter ⊢
        tauto
      have hbne : (sign != '+') = true := bne_iff_ne.2 hplus
      exact ⟨.behind sign hminus ⟨hour, hhourlt⟩ ⟨minute, hminutelt⟩, rfl, by rw [hbne]; rfl⟩

/-- The text is that of the stamp, with digits in excess. -/
def Stamp.IsText (s : Stamp) (text : List Char) : Prop :=
  ∃ excess, Excess s.fraction excess ∧
    text = s.lead (fractionText s.fraction ++ (excess ++ s.offset.text))

theorem Stamp.isText_text (s : Stamp) : s.IsText s.text := ⟨[], excess_nil s.fraction, rfl⟩

theorem Stamp.IsText.read? {s : Stamp} {text : List Char} (h : s.IsText text) :
    Fields.read? text = some s.fields := by
  obtain ⟨excess, hexcess, rfl⟩ := h
  exact s.read?_lead (takeFraction?_excess hexcess _) (takeOffset?_text _)

/-- Whatever is read is the text of a stamp, with digits in excess. -/
theorem exists_isText_of_read? {text : List Char} {fields : Fields}
    (h : Fields.read? text = some fields) : ∃ s : Stamp, s.IsText text ∧ fields = s.fields := by
  obtain ⟨⟨year, afterYear⟩, hyear, h⟩ := Option.bind_eq_some_iff.1 h
  obtain ⟨⟨dash, afterDash⟩, hdash, h⟩ := Option.bind_eq_some_iff.1 h
  obtain ⟨⟨month, afterMonth⟩, hmonth, h⟩ := Option.bind_eq_some_iff.1 h
  obtain ⟨⟨dash', afterDash'⟩, hdash', h⟩ := Option.bind_eq_some_iff.1 h
  obtain ⟨⟨day, afterDay⟩, hday, h⟩ := Option.bind_eq_some_iff.1 h
  obtain ⟨⟨separator, afterSeparator⟩, hseparator, h⟩ := Option.bind_eq_some_iff.1 h
  obtain ⟨⟨hour, afterHour⟩, hhour, h⟩ := Option.bind_eq_some_iff.1 h
  obtain ⟨⟨colon, afterColon⟩, hcolon, h⟩ := Option.bind_eq_some_iff.1 h
  obtain ⟨⟨minute, afterMinute⟩, hminute, h⟩ := Option.bind_eq_some_iff.1 h
  obtain ⟨⟨colon', afterColon'⟩, hcolon', h⟩ := Option.bind_eq_some_iff.1 h
  obtain ⟨⟨second, afterSecond⟩, hsecond, h⟩ := Option.bind_eq_some_iff.1 h
  obtain ⟨⟨nanos, afterFraction⟩, hfraction, h⟩ := Option.bind_eq_some_iff.1 h
  obtain ⟨⟨parts, afterOffset⟩, hoffset, h⟩ := Option.bind_eq_some_iff.1 h
  obtain ⟨hempty, hfields⟩ := Option.ite_none_right_eq_some.1 h
  rw [List.isEmpty_iff.1 hempty] at hoffset
  -- Each step says what the text began with before it.
  obtain ⟨hyearlt, hyear⟩ := takeDigits?_eq_some hyear
  obtain ⟨hdashmem, hdash⟩ := takeOneOf?_eq_some hdash
  obtain ⟨hmonthlt, hmonth⟩ := takeDigits?_eq_some hmonth
  obtain ⟨hdashmem', hdash'⟩ := takeOneOf?_eq_some hdash'
  obtain ⟨hdaylt, hday⟩ := takeDigits?_eq_some hday
  obtain ⟨hseparatormem, hseparator⟩ := takeOneOf?_eq_some hseparator
  obtain ⟨hhourlt, hhour⟩ := takeDigits?_eq_some hhour
  obtain ⟨hcolonmem, hcolon⟩ := takeOneOf?_eq_some hcolon
  obtain ⟨hminutelt, hminute⟩ := takeDigits?_eq_some hminute
  obtain ⟨hcolonmem', hcolon'⟩ := takeOneOf?_eq_some hcolon'
  obtain ⟨hsecondlt, hsecond⟩ := takeDigits?_eq_some hsecond
  obtain ⟨fraction, excess, hexcess, hfraction, hnanos⟩ := takeFraction?_eq_some hfraction
  obtain ⟨offset, hoffset, hparts⟩ := takeOffset?_eq_some hoffset
  let s : Stamp :=
    { year := ⟨year, hyearlt⟩
      month := ⟨month, hmonthlt⟩
      day := ⟨day, hdaylt⟩
      separator
      separator_mem := hseparatormem
      hour := ⟨hour, hhourlt⟩
      minute := ⟨minute, hminutelt⟩
      second := ⟨second, hsecondlt⟩
      fraction
      offset }
  have htext : text = s.lead (fractionText s.fraction ++ (excess ++ s.offset.text)) := by
    rw [hyear, hdash, hmonth, hdash', hday, hseparator, hhour, hcolon, hminute, hcolon', hsecond,
      hfraction, hoffset, List.mem_singleton.1 hdashmem, List.mem_singleton.1 hdashmem',
      List.mem_singleton.1 hcolonmem, List.mem_singleton.1 hcolonmem']
    rfl
  refine ⟨s, ⟨excess, hexcess, htext⟩, ?_⟩
  rw [← Option.some.inj hfields, hnanos, hparts]
  rfl

/-- A text with fields is the text of a stamp, and the fields are its own. -/
theorem read?_eq_some_iff {text : List Char} {fields : Fields} :
    Fields.read? text = some fields ↔ ∃ s : Stamp, s.IsText text ∧ s.fields = fields := by
  constructor
  · intro h
    obtain ⟨s, htext, rfl⟩ := exists_isText_of_read? h
    exact ⟨s, htext, rfl⟩
  · rintro ⟨s, htext, rfl⟩
    exact htext.read?

end MessageExchange.Time
