import MessageExchange.Options.Bytes
import MessageExchange.Proofs.Options.Grammar

/-!
# Two readers of one language

Texts and bytes have a reader each.  The reader of bytes finds in the bytes of a
text what the other one finds in the text, and refuses bytes that are no text
(`byteTokens?_eq_some_iff`).

That it accepts the bytes of a text is an induction on how the text is written.  For
the converse `Copied` says what was copied from which bytes inside a string: the
bytes of a character from one of its spellings, or a byte above ASCII from itself.
Such a byte need not belong to a character.  It does if the whole string is
well-formed, because the bytes that continue a character cannot come from an escape
(`Copied.continued`).  So the string has a text, and the bytes that it was copied
from are a spelling of this text (`Copied.exists_spelled`).
-/

namespace MessageExchange.Json

open Text (utf8 utf8EncodeChar_of_ascii encodesChar_utf8EncodeChar EncodesChar Encodes Continues)

/-! ## Bytes of ASCII -/

theorem toNat_byteChar (b : UInt8) : (byteChar b).toNat = b.toNat :=
  toNat_ofNat (.inl (Nat.lt_trans b.toNat_lt (by decide)))

theorem utf8EncodeChar_byteChar {b : UInt8} (h : (byteChar b).toNat < 0x80) :
    String.utf8EncodeChar (byteChar b) = [b] :=
  utf8EncodeChar_of_ascii h (toNat_byteChar b).symm

theorem utf8_byteChar_cons {b : UInt8} (h : (byteChar b).toNat < 0x80) (text : List Char) :
    utf8 (byteChar b :: text) = b :: utf8 text := by
  rw [Text.utf8_cons, utf8EncodeChar_byteChar h, List.singleton_append]

theorem byteChar_injective : Function.Injective byteChar := by
  intro b d h
  rw [← UInt8.toNat_inj, ← toNat_byteChar, h, toNat_byteChar]

/-- A character of ASCII is that of a byte. -/
theorem exists_byteChar {c : Char} (h : c.toNat < 0x80) : ∃ b, byteChar b = c := by
  have hlt : c.toNat < UInt8.size := Nat.lt_trans h (by decide)
  refine ⟨UInt8.ofNat c.toNat, ?_⟩
  rw [← Char.toNat_inj, toNat_byteChar, UInt8.toNat_ofNat_of_lt' hlt]

theorem marks_ascii : ∀ mark ∈ marks, mark.1.toNat < 0x80 ∧ mark.1 ≠ '"' := by decide

theorem letters_ascii : ∀ letter ∈ letters, letter.1.toNat < 0x80 ∧ letter.1 ≠ 'u' := by decide

theorem HexDigit.ascii {n : Nat} {digit : Char} (h : HexDigit n digit) (hn : n < 16) :
    digit.toNat < 0x80 := by
  have hdigits : ∀ n < 16, n.digitChar.toNat < 0x80 ∧ n.digitChar.toUpper.toNat < 0x80 := by decide
  cases h with
  | inl hlower => exact hlower ▸ (hdigits n hn).1
  | inr hupper => exact hupper ▸ (hdigits n hn).2

theorem UnitEscape.ascii {n : Nat} {a b c d : Char} (h : UnitEscape n ['\\', 'u', a, b, c, d]) :
    a.toNat < 0x80 ∧ b.toNat < 0x80 ∧ c.toNat < 0x80 ∧ d.toNat < 0x80 := by
  cases h with
  | digits fits ha hb hc hd =>
      exact ⟨ha.ascii (by omega), hb.ascii (by omega), hc.ascii (by omega), hd.ascii (by omega)⟩

theorem isSpace_ascii {c : Char} (h : isSpace c = true) : c.toNat < 0x80 ∧ c ≠ '"' := by
  rcases isSpace_iff.1 h with rfl | rfl | rfl | rfl <;> decide

/-- The bytes of an escape of one letter. -/
theorem utf8_letter {b : UInt8} (h : (byteChar b).toNat < 0x80) :
    utf8 ['\\', byteChar b] = [0x5C, b] := by
  rw [Text.utf8_cons, utf8_byteChar_cons h]
  rfl

/-- The bytes of an escape of a UTF-16 unit. -/
theorem UnitEscape.utf8_eq {n : Nat} {a b c d : UInt8}
    (h : UnitEscape n ['\\', 'u', byteChar a, byteChar b, byteChar c, byteChar d]) :
    utf8 ['\\', 'u', byteChar a, byteChar b, byteChar c, byteChar d] =
      [0x5C, 0x75, a, b, c, d] := by
  obtain ⟨ha, hb, hc, hd⟩ := h.ascii
  rw [Text.utf8_cons, Text.utf8_cons, utf8_byteChar_cons ha, utf8_byteChar_cons hb,
    utf8_byteChar_cons hc, utf8_byteChar_cons hd]
  rfl

/-! ## The bytes of a text are accepted -/

theorem byteTokens?_ascii {c : Char} (hascii : c.toNat < 0x80) (hquote : c ≠ '"')
    (rest : List UInt8) :
    byteTokens? (String.utf8EncodeChar c ++ rest) =
      if isSpace c then byteTokens? rest
      else (punctuation? c).bind fun token => (byteTokens? rest).map (token :: ·) := by
  obtain ⟨b, rfl⟩ := exists_byteChar hascii
  rw [utf8EncodeChar_byteChar hascii, List.singleton_append, byteTokens?]
  · rfl
  · rintro rfl
    exact hquote rfl

theorem byteTokens?_gap {gap : List Char} (h : Gap gap) (rest : List UInt8) :
    byteTokens? (utf8 gap ++ rest) = byteTokens? rest := by
  induction gap with
  | nil => rfl
  | cons c gap ih =>
      have hspace : isSpace c = true := isSpace_iff.2 (h c List.mem_cons_self)
      obtain ⟨hascii, hquote⟩ := isSpace_ascii hspace
      rw [Text.utf8_cons, List.append_assoc, byteTokens?_ascii hascii hquote, if_pos hspace,
        ih fun d hd => h d (List.mem_cons_of_mem c hd)]

theorem byteTokens?_mark {c : Char} {token : Token} (h : (c, token) ∈ marks) (rest : List UInt8) :
    byteTokens? (String.utf8EncodeChar c ++ rest) = (byteTokens? rest).map (token :: ·) := by
  obtain ⟨hascii, hquote⟩ := marks_ascii _ h
  have hspace : ∀ mark ∈ marks, ¬isSpace mark.1 = true := by decide
  rw [byteTokens?_ascii hascii hquote, if_neg (hspace _ h), punctuation?_eq_some_iff.2 h]
  rfl

/-- A byte that stands for itself inside a string. -/
def Plain (b : UInt8) : Prop := 0x20 ≤ b.toNat ∧ b ≠ 0x22 ∧ b ≠ 0x5C

theorem Plain.of_above {b : UInt8} (h : 0x80 ≤ b.toNat) : Plain b := by
  refine ⟨by omega, ?_, ?_⟩ <;>
  · rintro rfl
    exact absurd h (by decide)

theorem plain_of_raw {c : Char} (quote : c ≠ '"') (backslash : c ≠ '\\')
    (control : 0x20 ≤ c.toNat) : ∀ b ∈ String.utf8EncodeChar c, Plain b := by
  rcases (encodesChar_utf8EncodeChar c).ascii_or_above with ⟨hascii, -⟩ | ⟨-, habove⟩
  · obtain ⟨b, rfl⟩ := exists_byteChar hascii
    rw [utf8EncodeChar_byteChar hascii, List.forall_mem_singleton]
    rw [toNat_byteChar] at control
    refine ⟨control, ?_, ?_⟩ <;> rintro rfl
    · exact quote rfl
    · exact backslash rfl
  · exact fun b hb => .of_above (habove b hb)

theorem byteStringTokens?_plain {b : UInt8} (h : Plain b) (scratch : Scratch) (rest : List UInt8) :
    byteStringTokens? scratch (b :: rest) =
      (scratch.byte? b).bind fun scratch => byteStringTokens? scratch rest := by
  obtain ⟨hcontrol, hquote, hbackslash⟩ := h
  have hlt : ¬b < 0x20 := by
    rw [UInt8.lt_iff_toNat_lt]
    exact Nat.not_lt.2 hcontrol
  rw [byteStringTokens?, if_neg]
  · rfl
  · simp [hlt, hbackslash]
  · exact hquote
  · exact fun _ _ _ _ _ h => absurd h hbackslash
  · exact fun _ _ h => absurd h hbackslash

theorem byteStringTokens?_copy {copied : List UInt8} (h : ∀ b ∈ copied, Plain b)
    (bytes rest : List UInt8) :
    byteStringTokens? (.whole bytes) (copied ++ rest) =
      byteStringTokens? (.whole (copied.reverse ++ bytes)) rest := by
  induction copied generalizing bytes with
  | nil => rfl
  | cons b copied ih =>
      obtain ⟨hb, hcopied⟩ := List.forall_mem_cons.1 h
      rw [List.cons_append, byteStringTokens?_plain hb, Scratch.byte?, Option.bind_some,
        ih hcopied, List.reverse_cons, List.append_assoc, List.singleton_append]

theorem byteStringTokens?_letter {l c : Char} (h : (l, c) ∈ letters) (scratch : Scratch)
    (rest : List UInt8) :
    byteStringTokens? scratch (utf8 ['\\', l] ++ rest) =
      (scratch.char? c).bind fun scratch => byteStringTokens? scratch rest := by
  obtain ⟨hascii, hu⟩ := letters_ascii _ h
  obtain ⟨b, rfl⟩ := exists_byteChar hascii
  rw [utf8_letter hascii, List.cons_append, List.singleton_append, byteStringTokens?,
    escaped?_eq_some_iff.2 h]
  · rfl
  · rintro _ _ _ _ _ rfl
    exact absurd rfl hu

theorem byteStringTokens?_unit {n : Nat} {text : List Char} (h : UnitEscape n text)
    (scratch : Scratch) (rest : List UInt8) :
    byteStringTokens? scratch (utf8 text ++ rest) =
      (scratch.unit? n).bind fun scratch => byteStringTokens? scratch rest := by
  have hescape := h
  cases hescape with
  | digits fits _ _ _ _ =>
      have hunit := hexUnit?_eq_some_iff.2 h
      obtain ⟨ha, hb, hc, hd⟩ := h.ascii
      obtain ⟨a, rfl⟩ := exists_byteChar ha
      obtain ⟨b, rfl⟩ := exists_byteChar hb
      obtain ⟨c, rfl⟩ := exists_byteChar hc
      obtain ⟨d, rfl⟩ := exists_byteChar hd
      rw [h.utf8_eq]
      show byteStringTokens? scratch (0x5C :: 0x75 :: a :: b :: c :: d :: rest) = _
      rw [byteStringTokens?, hunit]
      rfl

/-- A unit that is half of no pair adds the bytes of its character. -/
theorem Scratch.unit?_whole {n : Nat} (h : n < 0xD800 ∨ 0xE000 ≤ n) (bytes : List UInt8) :
    (whole bytes).unit? n = (whole bytes).char? (Char.ofNat n) := by
  have hhigh : ¬isHighSurrogate n = true := by
    simp only [isHighSurrogate, Bool.and_eq_true, decide_eq_true_eq]
    omega
  have hlow : ¬isLowSurrogate n = true := by
    simp only [isLowSurrogate, Bool.and_eq_true, decide_eq_true_eq]
    omega
  rw [unit?, if_neg hhigh, if_neg hlow]

theorem byteStringTokens?_spelling {c : Char} {text : List Char} (h : Spelling c text)
    (bytes rest : List UInt8) :
    byteStringTokens? (.whole bytes) (utf8 text ++ rest) =
      byteStringTokens? (.whole ((String.utf8EncodeChar c).reverse ++ bytes)) rest := by
  cases h with
  | raw quote backslash control =>
      rw [Text.utf8_cons, Text.utf8_nil, List.append_nil]
      exact byteStringTokens?_copy (plain_of_raw quote backslash control) bytes rest
  | letter known =>
      rw [byteStringTokens?_letter known]
      rfl
  | unit escape =>
      rw [byteStringTokens?_unit escape, Scratch.unit?_whole (toNat_lt_or_le c).1,
        Char.ofNat_toNat]
      rfl
  | pair large first second =>
      obtain ⟨hhigh, hlow, hpair⟩ := pairChar_units large
      rw [Text.utf8_append, List.append_assoc, byteStringTokens?_unit first, Scratch.unit?,
        if_pos hhigh, Option.bind_some, byteStringTokens?_unit second, Scratch.unit?, if_pos hlow,
        hpair]
      rfl

theorem byteStringTokens?_spelled {string text : List Char} (h : Spelled string text)
    (bytes rest : List UInt8) :
    byteStringTokens? (.whole bytes) (utf8 text ++ rest) =
      byteStringTokens? (.whole ((utf8 string).reverse ++ bytes)) rest := by
  induction h generalizing bytes with
  | nil => rfl
  | cons first others ih =>
      rw [Text.utf8_append, List.append_assoc, byteStringTokens?_spelling first, ih,
        Text.utf8_cons, List.reverse_append, List.append_assoc]

/-- A string that ends has the text that its bytes encode. -/
theorem Scratch.text?_eq_some_iff {bytes : List UInt8} {s : String} :
    (whole bytes).text? = some s ↔ Encodes s.toList bytes.reverse := by
  rw [text?, Text.fromUTF8?_eq_some_iff, ← Text.encodes_toList_iff]

theorem byteTokens?_of_lexed {tokens : List Token} {text : List Char} (h : Lexed tokens text) :
    byteTokens? (utf8 text) = some tokens := by
  induction h with
  | nil blank =>
      rw [← List.append_nil (utf8 _), byteTokens?_gap blank]
      rfl
  | cons blank first _ ih =>
      rw [Text.utf8_append, byteTokens?_gap blank, Text.utf8_append]
      cases first with
      | mark known =>
          rw [Text.utf8_cons, Text.utf8_nil, List.append_nil, byteTokens?_mark known, ih]
          rfl
      | @string string body spelled =>
          have htext :
              (Scratch.whole (utf8 string).reverse).text? = some (String.ofList string) := by
            rw [Scratch.text?_eq_some_iff, List.reverse_reverse, String.toList_ofList]
            exact Text.encodes_utf8 string
          rw [Text.utf8_cons, Text.utf8_append, List.append_assoc, List.append_assoc]
          show byteTokens? (0x22 :: (utf8 body ++ (0x22 :: utf8 _))) = _
          rw [byteTokens?, byteStringTokens?_spelled spelled, List.append_nil, byteStringTokens?,
            htext, ih]
          show some (Token.string (String.ofList string).toList :: _) = _
          rw [String.toList_ofList]

/-! ## Nothing else is accepted -/

/-- What was copied inside a string, with the bytes that it was copied from. -/
inductive Copied : List UInt8 → List UInt8 → Prop
  | nil : Copied [] []
  /-- The bytes of a character, from a spelling of it. -/
  | char {c : Char} {text : List Char} {copy source : List UInt8} (spelling : Spelling c text)
      (others : Copied copy source) : Copied (String.utf8EncodeChar c ++ copy) (utf8 text ++ source)
  /-- A byte above ASCII, whatever it is. -/
  | byte {b : UInt8} {copy source : List UInt8} (above : 0x80 ≤ b.toNat)
      (others : Copied copy source) : Copied (b :: copy) (b :: source)

theorem exists_lead {c : Char} {bytes : List UInt8} (h : EncodesChar c bytes) :
    ∃ lead tail, bytes = lead :: tail ∧ ¬Continues lead ∧ ∀ b ∈ tail, Continues b := by
  obtain ⟨count, hsequence, -⟩ := h
  cases hsequence with
  | mk hlead _ htail _ => exact ⟨_, _, rfl, hlead.not_continues, htail⟩

/-- Bytes that continue a character were copied from themselves. -/
theorem Copied.continued {tail copy source : List UInt8} (htail : ∀ b ∈ tail, Continues b)
    (h : Copied (tail ++ copy) source) :
    ∃ others, source = tail ++ others ∧ Copied copy others := by
  induction tail generalizing source with
  | nil => exact ⟨source, rfl, h⟩
  | cons b tail ih =>
      obtain ⟨hb, htail⟩ := List.forall_mem_cons.1 htail
      generalize hcopy : b :: tail ++ copy = whole at h
      cases h with
      | nil => cases hcopy
      | @char c text copy' source' spelling others =>
          -- A character starts with a byte that continues none.
          obtain ⟨lead, rest, hbytes, hlead, -⟩ := exists_lead (encodesChar_utf8EncodeChar c)
          rw [hbytes] at hcopy
          obtain ⟨rfl, -⟩ := List.cons.inj hcopy
          exact absurd hb hlead
      | byte above others =>
          obtain ⟨rfl, rfl⟩ := List.cons.inj hcopy
          obtain ⟨source, rfl, hcopied⟩ := ih htail others
          exact ⟨source, rfl, hcopied⟩

/-- If what was copied is a text, the bytes that it was copied from are a spelling of the text. -/
theorem Copied.exists_spelled {string : List Char} {copy source : List UInt8}
    (h : Copied copy source) (hencodes : Encodes string copy) :
    ∃ text, source = utf8 text ∧ Spelled string text := by
  induction hencodes generalizing source with
  | nil =>
      generalize hcopy : ([] : List UInt8) = copy at h
      cases h with
      | nil => exact ⟨[], rfl, .nil⟩
      | @char c text copy' source' spelling others =>
          obtain ⟨lead, rest, hbytes, -, -⟩ := exists_lead (encodesChar_utf8EncodeChar c)
          rw [hbytes] at hcopy
          cases hcopy
      | byte above others => cases hcopy
  | @cons c chars bytes rest hchar _ ih =>
      generalize hcopy : bytes ++ rest = copy at h
      obtain ⟨lead, tail, rfl, -, htail⟩ := exists_lead hchar
      cases h with
      | nil => cases hcopy
      | @char d text copy' source' spelling others =>
          obtain ⟨-, rfl, rfl⟩ := hchar.unique (encodesChar_utf8EncodeChar d) hcopy
          obtain ⟨texts, rfl, hspelled⟩ := ih others
          exact ⟨text ++ texts, (Text.utf8_append text texts).symm, .cons spelling hspelled⟩
      | byte above others =>
          obtain ⟨rfl, rfl⟩ := List.cons.inj hcopy
          obtain ⟨source, rfl, hcopied⟩ := others.continued htail
          obtain ⟨texts, rfl, hspelled⟩ := ih hcopied
          have hcode : 0x80 ≤ c.toNat := by
            rcases hchar.ascii_or_above with ⟨-, b, hb, hcode⟩ | ⟨hcode, -⟩
            · obtain ⟨rfl, -⟩ := List.cons.inj hb
              exact hcode ▸ above
            · exact hcode
          have hraw : Spelling c [c] := by
            refine .raw ?_ ?_ (by omega) <;>
            · rintro rfl
              exact absurd hcode (by decide)
          refine ⟨c :: texts, ?_, .cons hraw hspelled⟩
          rw [Text.utf8_cons, ← Text.encodesChar_iff.1 hchar]
          rfl

/-- The tokens of bytes that start inside a string, of which something was read. -/
inductive StringCopied : Scratch → List Token → List UInt8 → Prop
  | close {bytes copy source : List UInt8} {string rest : List Char} {tokens : List Token}
      (copied : Copied copy source) (encoded : Encodes string (bytes.reverse ++ copy))
      (others : Lexed tokens rest) :
      StringCopied (.whole bytes) (.string string :: tokens) (source ++ 0x22 :: utf8 rest)
  | second {bytes source : List UInt8} {high low : Nat} {text : List Char} {tokens : List Token}
      (escape : UnitEscape low text) (isLow : isLowSurrogate low = true)
      (others : StringCopied
        (.whole ((String.utf8EncodeChar (pairChar high low)).reverse ++ bytes)) tokens source) :
      StringCopied (.half bytes high) tokens (utf8 text ++ source)

namespace StringCopied

variable {scratch next : Scratch} {bytes source : List UInt8} {tokens : List Token}

/-- What is copied next may as well be part of what was read. -/
theorem copy {copied from' : List UInt8}
    (hcopied : ∀ copy source, Copied copy source → Copied (copied ++ copy) (from' ++ source))
    (h : StringCopied (.whole (copied.reverse ++ bytes)) tokens source) :
    StringCopied (.whole bytes) tokens (from' ++ source) := by
  cases h with
  | close others encoded lexed =>
      rw [List.reverse_append, List.reverse_reverse, List.append_assoc] at encoded
      rw [← List.append_assoc]
      exact .close (hcopied _ _ others) encoded lexed

theorem char {c : Char} {text : List Char} (spelling : Spelling c text)
    (h : StringCopied (.whole ((String.utf8EncodeChar c).reverse ++ bytes)) tokens source) :
    StringCopied (.whole bytes) tokens (utf8 text ++ source) :=
  h.copy fun _ _ others => .char spelling others

theorem plain {b : UInt8} (hb : Plain b) (hnext : scratch.byte? b = some next)
    (h : StringCopied next tokens source) : StringCopied scratch tokens (b :: source) := by
  cases scratch with
  | half bytes high => cases hnext
  | whole bytes =>
      cases hnext
      obtain ⟨hcontrol, hquote, hbackslash⟩ := hb
      by_cases habove : 0x80 ≤ b.toNat
      · have hcopied (copy source : List UInt8) (others : Copied copy source) :
            Copied ([b] ++ copy) ([b] ++ source) := .byte habove others
        exact copy hcopied h
      · have hascii : (byteChar b).toNat < 0x80 := by
          rw [toNat_byteChar]
          exact Nat.lt_of_not_le habove
        have hraw : Spelling (byteChar b) [byteChar b] :=
          .raw (fun h => hquote (byteChar_injective h)) (fun h => hbackslash (byteChar_injective h))
            ((toNat_byteChar b).symm ▸ hcontrol)
        have hsource : utf8 [byteChar b] = [b] := utf8_byteChar_cons hascii []
        rw [← List.singleton_append, ← hsource]
        refine char hraw ?_
        rwa [utf8EncodeChar_byteChar hascii]

theorem letter {l c : Char} (known : (l, c) ∈ letters) (hnext : scratch.char? c = some next)
    (h : StringCopied next tokens source) :
    StringCopied scratch tokens (utf8 ['\\', l] ++ source) := by
  cases scratch with
  | half bytes high => cases hnext
  | whole bytes =>
      cases hnext
      exact h.char (.letter known)

theorem unit {n : Nat} {text : List Char} (escape : UnitEscape n text)
    (hnext : scratch.unit? n = some next) (h : StringCopied next tokens source) :
    StringCopied scratch tokens (utf8 text ++ source) := by
  cases scratch with
  | whole bytes =>
      rw [Scratch.unit?] at hnext
      split at hnext
      · next hhigh =>
        cases hnext
        cases h with
        | second escape' hlow others =>
            obtain ⟨hlarge, hfirst, hsecond⟩ := units_pairChar hhigh hlow
            rw [← List.append_assoc, ← Text.utf8_append]
            exact others.char (.pair hlarge (hfirst.symm ▸ escape) (hsecond.symm ▸ escape'))
      · next hhigh =>
        split at hnext
        · cases hnext
        · next hlow =>
          cases hnext
          exact h.char (spelling_of_unit escape ⟨hhigh, hlow⟩)
  | half bytes high =>
      rw [Scratch.unit?] at hnext
      split at hnext
      · next hlow =>
        cases hnext
        exact .second escape hlow h
      · cases hnext

end StringCopied

/-- What is read from bytes outside a string is the row of tokens of a text with these bytes, and
what is read inside one is the rest of the string and such a row. -/
theorem lexed_and_stringCopied :
    (∀ bytes tokens, byteTokens? bytes = some tokens →
      ∃ text, bytes = utf8 text ∧ Lexed tokens text) ∧
      ∀ scratch bytes tokens, byteStringTokens? scratch bytes = some tokens →
        StringCopied scratch tokens bytes := by
  apply byteTokens?.mutual_induct
  case case1 =>
    intro tokens h
    cases h
    exact ⟨[], rfl, .nil (List.forall_mem_nil _)⟩
  case case2 =>
    intro rest ih tokens h
    rw [byteTokens?] at h
    cases ih tokens h with
    | close copied encoded others =>
        obtain ⟨body, rfl, hspelled⟩ := copied.exists_spelled encoded
        refine ⟨_, ?_, .cons (List.forall_mem_nil _) (.string hspelled) others⟩
        simp only [List.nil_append, List.cons_append, List.append_assoc, Text.utf8_cons,
          Text.utf8_append]
        rfl
  case case3 =>
    intro b rest hquote hspace ih tokens h
    rw [byteTokens?, if_pos hspace] at h
    · obtain ⟨text, rfl, hlexed⟩ := ih tokens h
      exact ⟨byteChar b :: text, (utf8_byteChar_cons (isSpace_ascii hspace).1 text).symm,
        hlexed.space hspace⟩
    · exact hquote
  case case4 =>
    intro b rest hquote hspace ih tokens h
    rw [byteTokens?, if_neg hspace] at h
    · obtain ⟨token, htoken, h⟩ := Option.bind_eq_some_iff.1 h
      obtain ⟨others, hothers, rfl⟩ := Option.map_eq_some_iff.1 h
      obtain ⟨text, rfl, hlexed⟩ := ih others hothers
      have hmark := punctuation?_eq_some_iff.1 htoken
      exact ⟨byteChar b :: text, (utf8_byteChar_cons (marks_ascii _ hmark).1 text).symm,
        .cons (List.forall_mem_nil _) (.mark hmark) hlexed⟩
    · exact hquote
  case case5 =>
    intro scratch tokens h
    cases h
  case case6 =>
    intro scratch rest ih tokens h
    rw [byteStringTokens?] at h
    obtain ⟨text, htext, h⟩ := Option.bind_eq_some_iff.1 h
    obtain ⟨others, hothers, rfl⟩ := Option.map_eq_some_iff.1 h
    obtain ⟨rest, rfl, hlexed⟩ := ih others hothers
    cases scratch with
    | half bytes high => cases htext
    | whole bytes =>
        have hencodes := Scratch.text?_eq_some_iff.1 htext
        rw [← List.append_nil bytes.reverse] at hencodes
        exact .close .nil hencodes hlexed
  case case7 =>
    intro scratch a b c d rest ih tokens h
    rw [byteStringTokens?] at h
    obtain ⟨next, hnext, h⟩ := Option.bind_eq_some_iff.1 h
    obtain ⟨n, hunit, hnext⟩ := Option.bind_eq_some_iff.1 hnext
    have hescape := hexUnit?_eq_some_iff.1 hunit
    have hcopied := (ih next tokens h).unit hescape hnext
    rwa [hescape.utf8_eq] at hcopied
  case case8 =>
    intro scratch letter rest hunit ih tokens h
    rw [byteStringTokens?] at h
    · obtain ⟨next, hnext, h⟩ := Option.bind_eq_some_iff.1 h
      obtain ⟨c, hletter, hnext⟩ := Option.bind_eq_some_iff.1 hnext
      have hknown := escaped?_eq_some_iff.1 hletter
      have hcopied := (ih next tokens h).letter hknown hnext
      rwa [utf8_letter (letters_ascii _ hknown).1] at hcopied
    · exact hunit
  case case9 =>
    intro scratch b rest hquote hunit hletter hrefused tokens h
    rw [byteStringTokens?, if_pos hrefused] at h
    · cases h
    · exact hquote
    · exact hunit
    · exact hletter
  case case10 =>
    intro scratch b rest hquote hunit hletter hallowed ih tokens h
    simp only [Bool.or_eq_true, decide_eq_true_eq, not_or, UInt8.not_lt, UInt8.le_iff_toNat_le]
      at hallowed
    have hplain : Plain b := ⟨hallowed.1, hquote, hallowed.2⟩
    rw [byteStringTokens?_plain hplain] at h
    obtain ⟨next, hnext, h⟩ := Option.bind_eq_some_iff.1 h
    exact (ih next tokens h).plain hplain hnext

/-- The tokens of bytes are those of the text whose bytes they are. -/
theorem byteTokens?_eq_some_iff {bytes : List UInt8} {tokens : List Token} :
    byteTokens? bytes = some tokens ↔ ∃ text, Encodes text bytes ∧ tokens? text = some tokens := by
  simp only [tokens?_eq_some_iff, Text.encodes_iff]
  constructor
  · exact lexed_and_stringCopied.1 bytes tokens
  · rintro ⟨text, rfl, hlexed⟩
    exact byteTokens?_of_lexed hlexed

/-- The members that bytes hold are those that the text with these bytes holds. -/
theorem objectOfBytes?_eq_some_iff {content : ByteArray} {members : List (String × String)} :
    objectOfBytes? content = some members ↔
      ∃ text : String, Encodes text.toList content.data.toList ∧ object? text = some members := by
  simp only [objectOfBytes?, object?, Option.bind_eq_some_iff, byteTokens?_eq_some_iff]
  constructor
  · rintro ⟨tokens, ⟨text, hencodes, htokens⟩, hmembers⟩
    refine ⟨String.ofList text, ?_, tokens, ?_, hmembers⟩ <;> rwa [String.toList_ofList]
  · rintro ⟨text, hencodes, tokens, htokens, hmembers⟩
    exact ⟨tokens, ⟨text.toList, hencodes, htokens⟩, hmembers⟩

/-- The strict reader reads the bytes of the grammar. -/
theorem Decoder.readsBytes_standard : standard.ReadsBytes := fun content members => by
  refine elim_eq_ok_iff.trans (objectOfBytes?_eq_some_iff.trans ?_)
  simp only [object?_eq_some_iff, Grammar.document_bytes_iff]

end MessageExchange.Json
