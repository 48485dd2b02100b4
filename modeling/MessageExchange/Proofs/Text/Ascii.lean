import MessageExchange.Proofs.Text.Utf8

/-!
# ASCII among the bytes of a text

A character of ASCII is one byte, that of its code point.  The bytes of any other
character are all above ASCII (`EncodesChar.ascii_or_above`).  So a byte of ASCII in
the bytes of a text is always a character of its own, and to look for it among the
bytes is to look for it in the text (`mem_utf8_iff`).
-/

namespace MessageExchange.Text

/-- The bytes of characters in a row. -/
def utf8 (chars : List Char) : List UInt8 := chars.flatMap String.utf8EncodeChar

@[simp] theorem utf8_nil : utf8 [] = [] := rfl

@[simp] theorem utf8_cons (c : Char) (chars : List Char) :
    utf8 (c :: chars) = String.utf8EncodeChar c ++ utf8 chars := List.flatMap_cons

@[simp] theorem utf8_append (chars others : List Char) :
    utf8 (chars ++ others) = utf8 chars ++ utf8 others := List.flatMap_append

theorem encodes_utf8 (chars : List Char) : Encodes chars (utf8 chars) := encodes_iff.2 rfl

theorem utf8_toList (s : String) : utf8 s.toList = s.toByteArray.data.toList :=
  (encodes_iff.1 (encodes_toList_iff.2 rfl)).symm

/-- A character is one byte of ASCII, or all its bytes are above ASCII. -/
theorem EncodesChar.ascii_or_above {c : Char} {bytes : List UInt8} (h : EncodesChar c bytes) :
    (c.toNat < 0x80 ∧ ∃ b : UInt8, bytes = [b] ∧ b.toNat = c.toNat) ∨
      0x80 ≤ c.toNat ∧ ∀ b ∈ bytes, 0x80 ≤ b.toNat := by
  obtain ⟨count, hsequence, hleast⟩ := h
  cases hsequence with
  | @mk lead tail bits hlead hlength htail hvalue =>
    have hall (habove : 0x80 ≤ lead.toNat) : ∀ b ∈ lead :: tail, 0x80 ≤ b.toNat :=
      List.forall_mem_cons.2 ⟨habove, fun b hb => (htail b hb).1⟩
    cases hlead with
    | alone hbits hlt =>
        cases List.length_eq_zero_iff.1 hlength
        have hcode : bits = c.toNat := hvalue
        exact .inl ⟨by omega, lead, rfl, hbits.trans hcode⟩
    | one hbits _ => exact .inr ⟨hleast, hall (by omega)⟩
    | two hbits _ => exact .inr ⟨Nat.le_trans (by decide) hleast, hall (by omega)⟩
    | three hbits _ => exact .inr ⟨Nat.le_trans (by decide) hleast, hall (by omega)⟩

theorem encodesChar_utf8EncodeChar (c : Char) : EncodesChar c (String.utf8EncodeChar c) :=
  encodesChar_iff.2 rfl

/-- The byte of a character of ASCII. -/
theorem utf8EncodeChar_of_ascii {c : Char} {b : UInt8} (hascii : c.toNat < 0x80)
    (hb : b.toNat = c.toNat) : String.utf8EncodeChar c = [b] := by
  rcases (encodesChar_utf8EncodeChar c).ascii_or_above with ⟨-, d, hd, hcode⟩ | ⟨habove, -⟩
  · rw [hd, UInt8.toNat_inj.1 (hcode.trans hb.symm)]
  · omega

/-- Bytes start with the byte of the first character if that is of ASCII. -/
theorem Encodes.head_of_ascii {c : Char} {b : UInt8} {chars : List Char} {rest : List UInt8}
    (h : Encodes (c :: chars) (b :: rest)) (hascii : c.toNat < 0x80) : b.toNat = c.toNat := by
  obtain ⟨d, hd⟩ : ∃ d : UInt8, d.toNat = c.toNat :=
    ⟨UInt8.ofNat c.toNat, UInt8.toNat_ofNat_of_lt' (Nat.lt_trans hascii (by decide))⟩
  have hbytes := encodes_iff.1 h
  rw [List.flatMap_cons, utf8EncodeChar_of_ascii hascii hd] at hbytes
  rw [(List.cons.inj hbytes).1, hd]

/-- A byte of ASCII is among the bytes of a text exactly if its character is in the text. -/
theorem mem_utf8_iff {c : Char} {b : UInt8} (hascii : c.toNat < 0x80) (hb : b.toNat = c.toNat)
    {chars : List Char} : b ∈ utf8 chars ↔ c ∈ chars := by
  rw [utf8, List.mem_flatMap]
  constructor
  · rintro ⟨d, hd, hmem⟩
    rcases (encodesChar_utf8EncodeChar d).ascii_or_above with ⟨-, e, he, hcode⟩ | ⟨-, habove⟩
    · rw [he, List.mem_singleton] at hmem
      rwa [Char.toNat_inj.1 (hb.symm.trans ((congrArg UInt8.toNat hmem).trans hcode))]
    · have := habove b hmem
      omega
  · intro hmem
    refine ⟨c, hmem, ?_⟩
    rw [utf8EncodeChar_of_ascii hascii hb]
    exact List.mem_singleton_self b

end MessageExchange.Text
