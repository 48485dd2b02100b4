import MessageExchange.Options.Json

/-!
# How a string is spelled

`Spelling c text` says that a text inside a JSON string stands for one character:
the character itself, an escape of one letter, or one or two escapes of a UTF-16
unit in hexadecimal.  `Spelled` puts the spellings of a string's characters in a
row.

The reader does not group a text into characters.  It takes pieces, and joins
them when the string has ended.  `Piece.Texts` is the row of pieces that a text
consists of, and `spelled_iff` says that the two views are one: a text spells a
string exactly if it consists of pieces that join to it.  A surrogate pair is
where they differ, one character of two pieces.
-/

namespace MessageExchange.Json

/-! ## Characters and strings -/

/-- The letters that stand for a character after a backslash. -/
def letters : List (Char × Char) :=
  [('"', '"'), ('\\', '\\'), ('/', '/'), ('b', '\x08'), ('f', '\x0c'), ('n', '\n'), ('r', '\r'),
    ('t', '\t')]

/-- The digit of a value below 16, in either case. -/
def HexDigit (n : Nat) (digit : Char) : Prop := digit = n.digitChar ∨ digit = n.digitChar.toUpper

/-- The escape of a UTF-16 unit. -/
inductive UnitEscape (n : Nat) : List Char → Prop
  | digits {a b c d : Char} (fits : n < 0x10000) (ha : HexDigit (n / 0x1000) a)
      (hb : HexDigit (n / 0x100 % 0x10) b) (hc : HexDigit (n / 0x10 % 0x10) c)
      (hd : HexDigit (n % 0x10) d) : UnitEscape n ['\\', 'u', a, b, c, d]

/-- A text that stands for a character inside a string. -/
inductive Spelling (c : Char) : List Char → Prop
  | raw (quote : c ≠ '"') (backslash : c ≠ '\\') (control : 0x20 ≤ c.toNat) : Spelling c [c]
  | letter {l : Char} (known : (l, c) ∈ letters) : Spelling c ['\\', l]
  | unit {text : List Char} (escape : UnitEscape c.toNat text) : Spelling c text
  | pair {high low : List Char} (large : 0x10000 ≤ c.toNat)
      (first : UnitEscape (0xD800 + (c.toNat - 0x10000) / 0x400) high)
      (second : UnitEscape (0xDC00 + (c.toNat - 0x10000) % 0x400) low) : Spelling c (high ++ low)

/-- A text that stands for a string, without its quotes. -/
inductive Spelled : List Char → List Char → Prop
  | nil : Spelled [] []
  | cons {c : Char} {text : List Char} {cs rest : List Char} (first : Spelling c text)
      (others : Spelled cs rest) : Spelled (c :: cs) (text ++ rest)

/-! ## Digits and letters -/

theorem escaped?_eq_some_iff {l c : Char} : escaped? l = some c ↔ (l, c) ∈ letters := by
  constructor
  · intro h
    unfold escaped? at h
    split at h <;> first | (cases h; decide) | cases h
  · intro h
    simp only [letters, List.mem_cons, List.not_mem_nil, or_false, Prod.mk.injEq] at h
    rcases h with ⟨rfl, rfl⟩ | ⟨rfl, rfl⟩ | ⟨rfl, rfl⟩ | ⟨rfl, rfl⟩ | ⟨rfl, rfl⟩ | ⟨rfl, rfl⟩ |
      ⟨rfl, rfl⟩ | ⟨rfl, rfl⟩ <;> rfl

theorem eq_ofNat {c : Char} {n : Nat} (h : c.toNat = n) : c = Char.ofNat n := by
  rw [← h, Char.ofNat_toNat]

theorem hexDigit?_digitChar : ∀ n < 16,
    hexDigit? n.digitChar = some n ∧ hexDigit? n.digitChar.toUpper = some n := by decide

theorem digitChar_ranges :
    (∀ n < 10, Char.ofNat (0x30 + n) = n.digitChar) ∧
      (∀ n < 6, Char.ofNat (0x41 + n) = (n + 10).digitChar.toUpper) ∧
      ∀ n < 6, Char.ofNat (0x61 + n) = (n + 10).digitChar := by decide

theorem hexDigit?_eq_some_iff {digit : Char} {n : Nat} :
    hexDigit? digit = some n ↔ n < 16 ∧ HexDigit n digit := by
  constructor
  · intro h
    obtain ⟨hdecimal, hupper, hlower⟩ := digitChar_ranges
    -- One case for each of the three ranges of digits.
    simp only [hexDigit?, Bool.and_eq_true, decide_eq_true_eq] at h
    split at h
    · next hr =>
      cases h
      refine ⟨by omega, .inl ?_⟩
      rw [← hdecimal _ (by omega)]
      exact eq_ofNat (by omega)
    · split at h
      · next hr =>
        cases h
        refine ⟨by omega, .inr ?_⟩
        rw [← hupper _ (by omega)]
        exact eq_ofNat (by omega)
      · split at h
        · next hr =>
          cases h
          refine ⟨by omega, .inl ?_⟩
          rw [← hlower _ (by omega)]
          exact eq_ofNat (by omega)
        · cases h
  · rintro ⟨hn, rfl | rfl⟩
    · exact (hexDigit?_digitChar n hn).1
    · exact (hexDigit?_digitChar n hn).2

theorem hexUnit?_eq_some_iff {a b c d : Char} {n : Nat} :
    hexUnit? a b c d = some n ↔ UnitEscape n ['\\', 'u', a, b, c, d] := by
  constructor
  · intro h
    simp only [hexUnit?, Option.bind_eq_bind, Option.bind_eq_some_iff, hexDigit?_eq_some_iff,
      Option.some.injEq] at h
    obtain ⟨i, ⟨hi, hia⟩, j, ⟨hj, hjb⟩, k, ⟨hk, hkc⟩, l, ⟨hl, hld⟩, rfl⟩ := h
    refine .digits (by omega) ?_ ?_ ?_ ?_
    · rwa [show (((i * 16 + j) * 16 + k) * 16 + l) / 0x1000 = i by omega]
    · rwa [show (((i * 16 + j) * 16 + k) * 16 + l) / 0x100 % 0x10 = j by omega]
    · rwa [show (((i * 16 + j) * 16 + k) * 16 + l) / 0x10 % 0x10 = k by omega]
    · rwa [show (((i * 16 + j) * 16 + k) * 16 + l) % 0x10 = l by omega]
  · intro h
    cases h with
    | digits fits ha hb hc hd =>
        rw [hexUnit?, hexDigit?_eq_some_iff.2 ⟨by omega, ha⟩,
          hexDigit?_eq_some_iff.2 ⟨by omega, hb⟩, hexDigit?_eq_some_iff.2 ⟨by omega, hc⟩,
          hexDigit?_eq_some_iff.2 ⟨by omega, hd⟩]
        simp only [Option.bind_eq_bind, Option.bind_some, Option.some.injEq]
        omega

/-! ## Pieces -/

/-- The text of a piece. -/
inductive Piece.Text : Piece → List Char → Prop
  | raw {c : Char} (quote : c ≠ '"') (backslash : c ≠ '\\') (control : 0x20 ≤ c.toNat) :
      Text (.char c) [c]
  | letter {l c : Char} (known : (l, c) ∈ letters) : Text (.char c) ['\\', l]
  | unit {n : Nat} {text : List Char} (escape : UnitEscape n text) : Text (.unit n) text

/-- The text of a row of pieces. -/
inductive Piece.Texts : List Piece → List Char → Prop
  | nil : Texts [] []
  | cons {piece : Piece} {text : List Char} {pieces : List Piece} {rest : List Char}
      (first : Piece.Text piece text) (others : Texts pieces rest) :
      Texts (piece :: pieces) (text ++ rest)

/-- A unit that is half of no pair is a character. -/
theorem Piece.join?_unit_cons {n : Nat} (h : n < 0xD800 ∨ 0xE000 ≤ n) (rest : List Piece) :
    join? (.unit n :: rest) = (join? rest).map (Char.ofNat n :: ·) := by
  have hhigh : isHighSurrogate n = false := by
    simp only [isHighSurrogate, Bool.and_eq_false_iff, decide_eq_false_iff_not]
    omega
  have hlow : isLowSurrogate n = false := by
    simp only [isLowSurrogate, Bool.and_eq_false_iff, decide_eq_false_iff_not]
    omega
  match rest with
  | [] => simp [join?, hhigh, hlow]
  | .char c :: rest => simp [join?, hhigh, hlow]
  | .unit low :: rest => simp [join?, hhigh, hlow]

theorem Piece.join?_pair_cons {high low : Nat} (hhigh : isHighSurrogate high)
    (hlow : isLowSurrogate low) (rest : List Piece) :
    join? (.unit high :: .unit low :: rest) = (join? rest).map (pairChar high low :: ·) := by
  simp [join?, hhigh, hlow]

/-! ## Pieces and characters -/

theorem toNat_ofNat {n : Nat} (h : n.isValidChar) : (Char.ofNat n).toNat = n := by
  rw [Char.ofNat, dif_pos h]
  rfl

/-- No character is a surrogate. -/
theorem toNat_lt_or_le (c : Char) :
    (c.toNat < 0xD800 ∨ 0xE000 ≤ c.toNat) ∧ c.toNat < 0x110000 := by
  have h : c.toNat.isValidChar := c.valid
  rcases h with h | ⟨h, h'⟩ <;> omega

theorem toNat_pairChar {high low : Nat} (hhigh : isHighSurrogate high) (hlow : isLowSurrogate low) :
    (pairChar high low).toNat = 0x10000 + (high - 0xD800) * 0x400 + (low - 0xDC00) := by
  simp only [isHighSurrogate, isLowSurrogate, Bool.and_eq_true, decide_eq_true_eq] at hhigh hlow
  unfold pairChar
  exact toNat_ofNat (.inr (by omega))

/-- The units of a surrogate pair are those of the character that they stand for. -/
theorem units_pairChar {high low : Nat} (hhigh : isHighSurrogate high) (hlow : isLowSurrogate low) :
    0x10000 ≤ (pairChar high low).toNat ∧
      0xD800 + ((pairChar high low).toNat - 0x10000) / 0x400 = high ∧
      0xDC00 + ((pairChar high low).toNat - 0x10000) % 0x400 = low := by
  rw [toNat_pairChar hhigh hlow]
  simp only [isHighSurrogate, isLowSurrogate, Bool.and_eq_true, decide_eq_true_eq] at hhigh hlow
  omega

/-- The units of a large character are a surrogate pair that stands for it. -/
theorem pairChar_units {c : Char} (h : 0x10000 ≤ c.toNat) :
    isHighSurrogate (0xD800 + (c.toNat - 0x10000) / 0x400) ∧
      isLowSurrogate (0xDC00 + (c.toNat - 0x10000) % 0x400) ∧
      pairChar (0xD800 + (c.toNat - 0x10000) / 0x400)
        (0xDC00 + (c.toNat - 0x10000) % 0x400) = c := by
  have hmax := (toNat_lt_or_le c).2
  simp only [isHighSurrogate, isLowSurrogate, Bool.and_eq_true, decide_eq_true_eq]
  refine ⟨by omega, by omega, ?_⟩
  unfold pairChar
  exact (eq_ofNat (by omega)).symm

theorem texts_of_spelled {string text : List Char} (h : Spelled string text) :
    ∃ pieces, Piece.Texts pieces text ∧ Piece.join? pieces = some string := by
  induction h with
  | nil => exact ⟨[], .nil, rfl⟩
  | @cons c text cs rest first others ih =>
      obtain ⟨pieces, hpieces, hjoin⟩ := ih
      cases first with
      | raw quote backslash control =>
          exact ⟨.char c :: pieces, .cons (.raw quote backslash control) hpieces,
            by simp [Piece.join?, hjoin]⟩
      | letter known =>
          exact ⟨.char c :: pieces, .cons (.letter known) hpieces, by simp [Piece.join?, hjoin]⟩
      | unit escape =>
          refine ⟨.unit c.toNat :: pieces, .cons (.unit escape) hpieces, ?_⟩
          rw [Piece.join?_unit_cons (toNat_lt_or_le c).1, hjoin, Char.ofNat_toNat]
          rfl
      | pair large first second =>
          obtain ⟨hhigh, hlow, hpair⟩ := pairChar_units large
          refine ⟨_, ?_, (Piece.join?_pair_cons hhigh hlow pieces).trans ?_⟩
          · rw [List.append_assoc]
            exact .cons (.unit first) (.cons (.unit second) hpieces)
          · rw [hjoin, hpair]
            rfl

theorem spelling_of_unit {n : Nat} {text : List Char} (escape : UnitEscape n text)
    (h : ¬isHighSurrogate n ∧ ¬isLowSurrogate n) : Spelling (Char.ofNat n) text := by
  have hvalid : n.isValidChar := by
    simp only [isHighSurrogate, isLowSurrogate, Bool.and_eq_true, decide_eq_true_eq] at h
    cases escape with
    | digits fits => rw [Nat.isValidChar]; omega
  refine .unit ?_
  rwa [toNat_ofNat hvalid]

theorem spelled_of_texts {pieces : List Piece} {string text : List Char}
    (htexts : Piece.Texts pieces text) (hjoin : Piece.join? pieces = some string) :
    Spelled string text := by
  fun_induction Piece.join? pieces generalizing string text with
  | case1 =>
      cases htexts
      cases hjoin
      exact .nil
  | case2 c pieces ih =>
      obtain ⟨others, hothers, rfl⟩ := Option.map_eq_some_iff.1 hjoin
      cases htexts with
      | cons first rest =>
          cases first with
          | raw quote backslash control =>
              exact .cons (.raw quote backslash control) (ih rest hothers)
          | letter known => exact .cons (.letter known) (ih rest hothers)
  | case3 high low pieces hhigh hlow ih =>
      obtain ⟨others, hothers, rfl⟩ := Option.map_eq_some_iff.1 hjoin
      -- Only here do two pieces make one character.
      obtain ⟨hlarge, hfirst, hsecond⟩ := units_pairChar hhigh hlow
      cases htexts with
      | cons first rest =>
          cases first with
          | unit escape =>
              cases rest with
              | cons second rest =>
                  cases second with
                  | unit escape' =>
                      rw [← List.append_assoc]
                      refine .cons (.pair hlarge ?_ ?_) (ih rest hothers)
                      · rwa [hfirst]
                      · rwa [hsecond]
  | case4 => cases hjoin
  | case5 => cases hjoin
  | case6 n low pieces hhigh hlow ih =>
      obtain ⟨others, hothers, rfl⟩ := Option.map_eq_some_iff.1 hjoin
      cases htexts with
      | cons first rest =>
          cases first with
          | unit escape =>
              exact .cons (spelling_of_unit escape ⟨hhigh, hlow⟩) (ih rest hothers)
  | case7 => cases hjoin
  | case8 n pieces hlast hsurrogate ih =>
      obtain ⟨others, hothers, rfl⟩ := Option.map_eq_some_iff.1 hjoin
      cases htexts with
      | cons first rest =>
          cases first with
          | unit escape =>
              rw [Bool.or_eq_true, not_or] at hsurrogate
              exact .cons (spelling_of_unit escape hsurrogate) (ih rest hothers)

/-- A text spells a string exactly if it consists of pieces that join to it. -/
theorem spelled_iff {string text : List Char} :
    Spelled string text ↔ ∃ pieces, Piece.Texts pieces text ∧ Piece.join? pieces = some string :=
  ⟨texts_of_spelled, fun ⟨_, htexts, hjoin⟩ => spelled_of_texts htexts hjoin⟩

end MessageExchange.Json
