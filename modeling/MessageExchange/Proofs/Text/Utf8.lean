import MessageExchange.Proofs.Text.Encoding
import Mathlib.Algebra.Order.Ring.Nat
import Mathlib.Data.List.Induction

/-!
# Well-formed UTF-8

A character is a lead byte and the continuation bytes that the lead byte announces.
Their bits make up the code point, and there are no more of them than it needs
(`EncodesChar`).  The bytes of a text are those of its characters in a row
(`Encodes`).

`Malformed` lists what stands where no character can be read.  Bytes are no text
exactly if they go on with something malformed after some characters
(`not_encodes_iff`).  For that it matters that no character starts another one, so
there is one way to read the characters (`EncodesChar.unique`).
-/

namespace MessageExchange.Text

/-! ## Lead bytes and continuation bytes -/

/-- Continuation bytes have six bits of a code point after their mark. -/
def Continues (b : UInt8) : Prop := 0x80 ≤ b.toNat ∧ b.toNat < 0xC0

instance : DecidablePred Continues := fun _ => inferInstanceAs (Decidable (_ ∧ _))

/-- A lead byte has the first bits of a code point, and announces a number of continuation bytes. -/
inductive Leads (lead : UInt8) (bits : Nat) : Nat → Prop where
  | alone : lead.toNat = bits → bits < 0x80 → Leads lead bits 0
  | one : lead.toNat = 0xC0 + bits → bits < 0x20 → Leads lead bits 1
  | two : lead.toNat = 0xE0 + bits → bits < 0x10 → Leads lead bits 2
  | three : lead.toNat = 0xF0 + bits → bits < 0x08 → Leads lead bits 3

/-- The number of the bits of a lead byte and those of continuation bytes. -/
def payload (bits : Nat) (tail : List UInt8) : Nat :=
  tail.foldl (fun n b => n * 64 + (b.toNat - 0x80)) bits

/-- The least number that needs so many continuation bytes. -/
def leastPayload : Nat → Nat
  | 0 => 0
  | 1 => 0x80
  | 2 => 0x800
  | _ => 0x10000

/-- A lead byte and all the continuation bytes that it announces, and the number of their bits. -/
inductive ByteSequence (count value : Nat) : List UInt8 → Prop where
  | mk {lead : UInt8} {tail : List UInt8} {bits : Nat} :
      Leads lead bits count → tail.length = count → (∀ b ∈ tail, Continues b) →
      payload bits tail = value → ByteSequence count value (lead :: tail)

/-! ## Texts and what is none -/

/-- The bytes of a character: no shorter sequence has its code point. -/
def EncodesChar (c : Char) (bytes : List UInt8) : Prop :=
  ∃ count, ByteSequence count c.toNat bytes ∧ leastPayload count ≤ c.toNat

/-- The bytes of characters in a row. -/
inductive Encodes : List Char → List UInt8 → Prop where
  | nil : Encodes [] []
  | cons {c : Char} {chars : List Char} {bytes rest : List UInt8} :
      EncodesChar c bytes → Encodes chars rest → Encodes (c :: chars) (bytes ++ rest)

/-- Bytes that start with no character. -/
inductive Malformed : List UInt8 → Prop where
  /-- A continuation byte where a lead byte is due. -/
  | stray {b : UInt8} {rest : List UInt8} : Continues b → Malformed (b :: rest)
  /-- A byte that no sequence has. -/
  | alien {b : UInt8} {rest : List UInt8} : 0xF8 ≤ b.toNat → Malformed (b :: rest)
  /-- The bytes end before all continuation bytes that are due, or another byte is in their way. -/
  | cut {lead : UInt8} {tail rest : List UInt8} {count bits : Nat} :
      Leads lead bits count → (∀ b ∈ tail, Continues b) → tail.length < count →
      (∀ b ∈ rest.head?, ¬Continues b) → Malformed (lead :: (tail ++ rest))
  /-- More bytes than the code point needs. -/
  | overlong {bytes rest : List UInt8} {count value : Nat} :
      ByteSequence count value bytes → value < leastPayload count → Malformed (bytes ++ rest)
  | surrogate {bytes rest : List UInt8} {count value : Nat} :
      ByteSequence count value bytes → 0xD800 ≤ value → value ≤ 0xDFFF → Malformed (bytes ++ rest)
  /-- A number above all code points. -/
  | beyond {bytes rest : List UInt8} {count value : Nat} :
      ByteSequence count value bytes → 0x10FFFF < value → Malformed (bytes ++ rest)

/-! ## One way to read -/

section
variable {count count' value value' : Nat} {bytes bytes' rest rest' : List UInt8}

theorem Leads.unique {lead : UInt8} {bits bits' : Nat} (h : Leads lead bits count)
    (h' : Leads lead bits' count') : count = count' ∧ bits = bits' := by
  cases h <;> cases h' <;> omega

theorem Leads.not_continues {lead : UInt8} {bits : Nat} (h : Leads lead bits count) :
    ¬Continues lead := by
  rintro ⟨hleast, hlt⟩
  cases h <;> omega

/-- Where two sequences start, they are the same one. -/
theorem ByteSequence.unique (h : ByteSequence count value bytes)
    (h' : ByteSequence count' value' bytes') (happend : bytes ++ rest = bytes' ++ rest') :
    bytes = bytes' ∧ rest = rest' ∧ count = count' ∧ value = value' := by
  cases h with
  | @mk lead tail bits hlead hlength _ hvalue =>
    cases h' with
    | @mk lead' tail' bits' hlead' hlength' _ hvalue' =>
      obtain ⟨rfl, htails⟩ := List.cons.inj happend
      obtain ⟨rfl, rfl⟩ := hlead.unique hlead'
      obtain ⟨rfl, rfl⟩ := List.append_inj htails (hlength.trans hlength'.symm)
      exact ⟨rfl, rfl, rfl, hvalue.symm.trans hvalue'⟩

/-- Where two characters start, they are the same one. -/
theorem EncodesChar.unique {c c' : Char} (h : EncodesChar c bytes) (h' : EncodesChar c' bytes')
    (happend : bytes ++ rest = bytes' ++ rest') : bytes = bytes' ∧ rest = rest' ∧ c = c' := by
  obtain ⟨_, hsequence, -⟩ := h
  obtain ⟨_, hsequence', -⟩ := h'
  obtain ⟨hbytes, hrest, -, hvalue⟩ := hsequence.unique hsequence' happend
  exact ⟨hbytes, hrest, Char.toNat_inj.1 hvalue⟩

theorem ByteSequence.ne_nil (h : ByteSequence count value bytes) : bytes ≠ [] := by
  cases h with
  | mk _ _ _ _ => exact List.cons_ne_nil _ _

theorem Malformed.ne_nil (h : Malformed bytes) : bytes ≠ [] := by
  cases h with
  | stray _ => exact List.cons_ne_nil _ _
  | alien _ => exact List.cons_ne_nil _ _
  | cut _ _ _ _ => exact List.cons_ne_nil _ _
  | overlong hsequence _ => exact List.append_ne_nil_of_left_ne_nil hsequence.ne_nil _
  | surrogate hsequence _ _ => exact List.append_ne_nil_of_left_ne_nil hsequence.ne_nil _
  | beyond hsequence _ => exact List.append_ne_nil_of_left_ne_nil hsequence.ne_nil _

/-- A sequence that starts where a character does has the code point of the character. -/
theorem EncodesChar.bounds {c : Char} (h : EncodesChar c bytes)
    (h' : ByteSequence count value bytes') (happend : bytes ++ rest = bytes' ++ rest') :
    leastPayload count ≤ value ∧ (value < 0xD800 ∨ 0xDFFF < value ∧ value < 0x110000) := by
  obtain ⟨_, hsequence, hleast⟩ := h
  obtain ⟨-, -, rfl, rfl⟩ := hsequence.unique h' happend
  exact ⟨hleast, c.valid⟩

/-- A sequence has all its continuation bytes. -/
theorem ByteSequence.exists_continues {lead : UInt8} {tail : List UInt8} {bits : Nat}
    (h : ByteSequence count' value bytes) (hlead : Leads lead bits count)
    (hlt : tail.length < count) (happend : bytes ++ rest = lead :: (tail ++ rest')) :
    ∃ b ∈ rest'.head?, Continues b := by
  cases h with
  | mk hlead' hlength hcontinues _ =>
    obtain ⟨rfl, htails⟩ := List.cons.inj happend
    obtain ⟨rfl, -⟩ := hlead.unique hlead'
    rcases List.append_eq_append_iff.1 htails with ⟨others, rfl, -⟩ | ⟨others, rfl, rfl⟩
    · rw [List.length_append] at hlt
      omega
    · cases others with
      | nil =>
          rw [List.append_nil] at hlength
          omega
      | cons b others =>
          exact ⟨b, rfl, hcontinues b (List.mem_append_right _ List.mem_cons_self)⟩

/-- Malformed bytes start with no character. -/
theorem Malformed.not_encodesChar (h : Malformed (bytes ++ rest)) (c : Char) :
    ¬EncodesChar c bytes := by
  intro hchar
  have ⟨_, hown, _⟩ := hchar
  generalize happend : bytes ++ rest = whole at h
  cases h with
  | stray hb =>
      cases hown with
      | mk hlead _ _ _ =>
        obtain ⟨rfl, -⟩ := List.cons.inj happend
        exact hlead.not_continues hb
  | alien hb =>
      cases hown with
      | mk hlead _ _ _ =>
        obtain ⟨rfl, -⟩ := List.cons.inj happend
        cases hlead <;> omega
  | cut hlead _ hlt hrest =>
      obtain ⟨b, hb, hcontinues⟩ := hown.exists_continues hlead hlt happend
      exact hrest b hb hcontinues
  | overlong hsequence hvalue =>
      have hbounds := hchar.bounds hsequence happend
      omega
  | surrogate hsequence hleast hlast =>
      have hbounds := hchar.bounds hsequence happend
      omega
  | beyond hsequence hvalue =>
      have hbounds := hchar.bounds hsequence happend
      omega

/-- Something malformed after characters makes bytes that are no text. -/
theorem Malformed.not_encodes {chars chars' : List Char} (h : Malformed rest)
    (hchars : Encodes chars bytes) : ¬Encodes chars' (bytes ++ rest) := by
  intro hall
  induction hchars generalizing chars' with
  | nil =>
      rw [List.nil_append] at hall
      cases hall with
      | nil => exact h.ne_nil rfl
      | cons hchar _ => exact h.not_encodesChar _ hchar
  | @cons c chars first others hchar _ ih =>
      rw [List.append_assoc] at hall
      generalize happend : first ++ (others ++ rest) = whole at hall
      cases hall with
      | nil =>
          obtain ⟨_, hsequence, -⟩ := hchar
          exact List.append_ne_nil_of_left_ne_nil hsequence.ne_nil _ happend
      | cons hchar' hall =>
          obtain ⟨-, rfl, -⟩ := hchar.unique hchar' happend
          exact ih hall

end

/-! ## Every sequence of bytes -/

/-- The bytes that continue a sequence, as many as are due or all up to another byte. -/
theorem exists_continuation (count : Nat) (bytes : List UInt8) :
    ∃ tail rest, bytes = tail ++ rest ∧ (∀ b ∈ tail, Continues b) ∧
      (tail.length = count ∨ tail.length < count ∧ ∀ b ∈ rest.head?, ¬Continues b) := by
  induction count generalizing bytes with
  | zero => exact ⟨[], bytes, rfl, nofun, .inl rfl⟩
  | succ count ih =>
      cases bytes with
      | nil => exact ⟨[], [], rfl, nofun, .inr ⟨Nat.succ_pos count, nofun⟩⟩
      | cons b bytes =>
          by_cases hb : Continues b
          · obtain ⟨tail, rest, rfl, htail, hlength⟩ := ih bytes
            refine ⟨b :: tail, rest, rfl, List.forall_mem_cons.2 ⟨hb, htail⟩, ?_⟩
            rcases hlength with hfull | ⟨hlt, hrest⟩
            · exact .inl (congrArg (· + 1) hfull)
            · exact .inr ⟨Nat.succ_lt_succ hlt, hrest⟩
          · refine ⟨[], b :: bytes, rfl, nofun, .inr ⟨Nat.succ_pos count, ?_⟩⟩
            rintro _ ⟨rfl⟩
            exact hb

/-- A byte is a lead byte, a continuation byte, or in no sequence. -/
theorem leads_or_continues (b : UInt8) :
    (∃ bits count, Leads b bits count) ∨ Continues b ∨ 0xF8 ≤ b.toNat := by
  by_cases halone : b.toNat < 0x80
  · exact .inl ⟨_, _, .alone rfl halone⟩
  by_cases hcontinues : b.toNat < 0xC0
  · exact .inr (.inl ⟨by omega, hcontinues⟩)
  by_cases hone : b.toNat < 0xE0
  · exact .inl ⟨b.toNat - 0xC0, _, .one (by omega) (by omega)⟩
  by_cases htwo : b.toNat < 0xF0
  · exact .inl ⟨b.toNat - 0xE0, _, .two (by omega) (by omega)⟩
  by_cases hthree : b.toNat < 0xF8
  · exact .inl ⟨b.toNat - 0xF0, _, .three (by omega) (by omega)⟩
  · exact .inr (.inr (by omega))

/-- Bytes start with a character or are malformed. -/
theorem encodesChar_or_malformed {bytes : List UInt8} (h : bytes ≠ []) :
    (∃ c front rest, bytes = front ++ rest ∧ EncodesChar c front) ∨ Malformed bytes := by
  obtain ⟨b, others, rfl⟩ := List.exists_cons_of_ne_nil h
  rcases leads_or_continues b with ⟨bits, count, hlead⟩ | hb | hb
  · obtain ⟨tail, rest, rfl, htail, hfull | ⟨hlt, hrest⟩⟩ := exists_continuation count others
    · have hsequence := ByteSequence.mk hlead hfull htail rfl
      by_cases hshort : payload bits tail < leastPayload count
      · exact .inr (.overlong hsequence hshort)
      by_cases hvalid : (payload bits tail).isValidChar
      · refine .inl ⟨Char.ofNatAux _ hvalid, b :: tail, rest, rfl, count, hsequence, ?_⟩
        exact Nat.le_of_not_lt hshort
      · rw [Nat.isValidChar] at hvalid
        by_cases hlast : payload bits tail ≤ 0xDFFF
        · exact .inr (.surrogate hsequence (by omega) hlast)
        · exact .inr (.beyond hsequence (by omega))
    · exact .inr (.cut hlead htail hlt hrest)
  · exact .inr (.stray hb)
  · exact .inr (.alien hb)

/-- Bytes are a text or go on with something malformed after some characters. -/
theorem encodes_or_malformed (bytes : List UInt8) :
    (∃ chars, Encodes chars bytes) ∨
      ∃ chars front rest, bytes = front ++ rest ∧ Encodes chars front ∧ Malformed rest := by
  -- A character takes off up to four bytes, so the induction is on the length.
  induction hlength : bytes.length using Nat.strongRecOn generalizing bytes with
  | ind n ih =>
    by_cases hempty : bytes = []
    · exact .inl ⟨[], hempty ▸ .nil⟩
    rcases encodesChar_or_malformed hempty with ⟨c, first, others, rfl, hchar⟩ | hmalformed
    · have hlt : others.length < n := by
        obtain ⟨_, hsequence, -⟩ := hchar
        have hpos := List.length_pos_iff.2 hsequence.ne_nil
        rw [← hlength, List.length_append]
        omega
      rcases ih _ hlt others rfl with ⟨chars, hchars⟩ | ⟨chars, front, rest, rfl, hfront, hrest⟩
      · exact .inl ⟨c :: chars, .cons hchar hchars⟩
      · exact .inr ⟨c :: chars, first ++ front, rest, (List.append_assoc _ _ _).symm,
          .cons hchar hfront, hrest⟩
    · exact .inr ⟨[], [], bytes, rfl, .nil, hmalformed⟩

/-- Bytes are no text if something malformed is in them after some characters, and only then. -/
theorem not_encodes_iff {bytes : List UInt8} :
    (∀ chars, ¬Encodes chars bytes) ↔
      ∃ chars front rest, bytes = front ++ rest ∧ Encodes chars front ∧ Malformed rest := by
  constructor
  · intro hnone
    rcases encodes_or_malformed bytes with ⟨chars, hchars⟩ | hmalformed
    · exact absurd hchars (hnone chars)
    · exact hmalformed
  · rintro ⟨_, _, _, rfl, hfront, hrest⟩ _
    exact hrest.not_encodes hfront

/-! ## The encoding of the standard library -/

/-- The continuation byte with the last six bits of a number. -/
def continuation (n : Nat) : UInt8 := UInt8.ofNat (n % 64 + 128)

/-- So many continuation bytes with the last bits of a number. -/
def continuations : Nat → Nat → List UInt8
  | 0, _ => []
  | count + 1, n => continuations count (n / 64) ++ [continuation n]

theorem toNat_continuation (n : Nat) : (continuation n).toNat = n % 64 + 128 :=
  UInt8.toNat_ofNat_of_lt' (by rw [UInt8.size]; omega)

theorem continues_continuation (n : Nat) : Continues (continuation n) := by
  rw [Continues, toNat_continuation]
  omega

theorem payload_concat (bits : Nat) (tail : List UInt8) (b : UInt8) :
    payload bits (tail ++ [b]) = payload bits tail * 64 + (b.toNat - 0x80) :=
  List.foldl_append

theorem continuation_payload {b : UInt8} (hb : Continues b) (n : Nat) :
    continuation (n * 64 + (b.toNat - 0x80)) = b := by
  obtain ⟨hleast, hlt⟩ := hb
  rw [← UInt8.toNat_inj, toNat_continuation]
  omega

/-- The bits of a number are the first ones and those of its continuation bytes. -/
theorem payload_eq_iff {bits n : Nat} {tail : List UInt8} :
    ((∀ b ∈ tail, Continues b) ∧ payload bits tail = n) ↔
      bits = n / 64 ^ tail.length ∧ tail = continuations tail.length n := by
  induction tail using List.reverseRecOn generalizing n with
  | nil => simp [payload, continuations]
  | append_singleton tail b ih =>
      rw [List.length_append, List.length_singleton, pow_succ', ← Nat.div_div_eq_div_mul,
        continuations, List.forall_mem_append, List.forall_mem_singleton, payload_concat]
      constructor
      · rintro ⟨⟨htail, hb⟩, hn⟩
        have hdiv : payload bits tail = n / 64 := by
          obtain ⟨hleast, hlt⟩ := hb
          omega
        obtain ⟨hbits, htail⟩ := ih.1 ⟨htail, hdiv⟩
        refine ⟨hbits, ?_⟩
        rw [← htail, ← hn, continuation_payload hb]
      · rintro ⟨hbits, happend⟩
        obtain ⟨htail, hb⟩ := List.append_inj' happend rfl
        obtain ⟨htail, hpayload⟩ := ih.2 ⟨hbits, htail⟩
        rw [List.singleton_inj.1 hb, hpayload, toNat_continuation]
        exact ⟨⟨htail, continues_continuation n⟩, by omega⟩

theorem length_continuations (count n : Nat) : (continuations count n).length = count := by
  induction count generalizing n with
  | zero => rfl
  | succ count ih => rw [continuations, List.length_append, ih, List.length_singleton]

/-- In the sequences of a number the continuation bytes have its last bits. -/
theorem byteSequence_iff {count n : Nat} {bytes : List UInt8} :
    ByteSequence count n bytes ↔
      ∃ lead, Leads lead (n / 64 ^ count) count ∧ bytes = lead :: continuations count n := by
  constructor
  · rintro ⟨hlead, rfl, htail, hn⟩
    obtain ⟨rfl, hcontinuations⟩ := payload_eq_iff.1 ⟨htail, hn⟩
    exact ⟨_, hlead, congrArg _ hcontinuations⟩
  · rintro ⟨lead, hlead, rfl⟩
    have hlength := length_continuations count n
    obtain ⟨htail, hn⟩ := payload_eq_iff.2
      ⟨(rfl : _ = n / 64 ^ (continuations count n).length), by rw [hlength]⟩
    rw [hlength] at hn
    exact .mk hlead hlength htail hn

/-- A number has one lead byte if no shorter sequence has it. -/
theorem Leads.eq_of_leastPayload_le {lead lead' : UInt8} {n count count' : Nat}
    (h : Leads lead (n / 64 ^ count) count) (h' : Leads lead' (n / 64 ^ count') count')
    (hleast : leastPayload count ≤ n) (hleast' : leastPayload count' ≤ n) :
    lead = lead' ∧ count = count' := by
  rw [← UInt8.toNat_inj]
  -- With fewer bytes than another sequence the number is below what the other one is for.
  cases h <;> cases h' <;> simp only [leastPayload] at hleast hleast' <;> omega

/-- The standard library starts the bytes of a character with its lead byte. -/
theorem exists_leads (c : Char) :
    ∃ lead count, Leads lead (c.toNat / 64 ^ count) count ∧ leastPayload count ≤ c.toNat ∧
      String.utf8EncodeChar c = lead :: continuations count c.toNat := by
  have hlt : c.val.toNat < 0x110000 := by
    have hvalid := c.valid
    rw [UInt32.isValidChar, Nat.isValidChar] at hvalid
    omega
  rw [String.utf8EncodeChar]
  show ∃ lead count, Leads lead (c.val.toNat / 64 ^ count) count ∧
    leastPayload count ≤ c.val.toNat ∧ _ = lead :: continuations count c.val.toNat
  generalize c.val.toNat = n at hlt ⊢
  have hlead {m : Nat} (hm : m < 256) : (UInt8.ofNat m).toNat = m := UInt8.toNat_ofNat_of_lt' hm
  split
  · exact ⟨_, 0, .alone (hlead (by omega)) (by omega), Nat.zero_le n, by simp [continuations]⟩
  split
  · refine ⟨UInt8.ofNat (n / 64 % 32 + 192), 1, .one ?_ (by omega), ?_, ?_⟩
    · rw [hlead (by omega)]
      omega
    · rw [leastPayload]
      omega
    · rfl
  split
  · refine ⟨UInt8.ofNat (n / 4096 % 16 + 224), 2, .two ?_ (by omega), ?_, ?_⟩
    · rw [hlead (by omega)]
      omega
    · rw [leastPayload]
      omega
    · rfl
  · refine ⟨UInt8.ofNat (n / 262144 % 8 + 240), 3, .three ?_ (by omega), ?_, ?_⟩
    · rw [hlead (by omega)]
      omega
    · simp only [leastPayload]
      omega
    · simp [continuations, continuation, Nat.div_div_eq_div_mul]

/-- The bytes of a character are those that the standard library gives it. -/
theorem encodesChar_iff {c : Char} {bytes : List UInt8} :
    EncodesChar c bytes ↔ bytes = String.utf8EncodeChar c := by
  obtain ⟨lead, count, hlead, hleast, heq⟩ := exists_leads c
  simp only [EncodesChar, byteSequence_iff, heq]
  constructor
  · rintro ⟨count', ⟨lead', hlead', rfl⟩, hleast'⟩
    obtain ⟨rfl, rfl⟩ := hlead.eq_of_leastPayload_le hlead' hleast hleast'
    rfl
  · rintro rfl
    exact ⟨count, ⟨lead, hlead, rfl⟩, hleast⟩

/-- The bytes of characters are those that the standard library gives them. -/
theorem encodes_iff {chars : List Char} {bytes : List UInt8} :
    Encodes chars bytes ↔ bytes = chars.flatMap String.utf8EncodeChar := by
  constructor
  · intro h
    induction h with
    | nil => rfl
    | cons hchar _ ih => rw [List.flatMap_cons, encodesChar_iff.1 hchar, ih]
  · rintro rfl
    induction chars with
    | nil => exact .nil
    | cons c chars ih => exact .cons (encodesChar_iff.2 rfl) ih

/-- The bytes of a text are those of its characters. -/
theorem encodes_toList_iff {s : String} {b : ByteArray} :
    Encodes s.toList b.data.toList ↔ b = s.toByteArray := by
  rw [encodes_iff, ← String.utf8Encode_toList, List.utf8Encode, ByteArray.ext_iff,
    List.data_toByteArray, ← Array.toList_inj]

end MessageExchange.Text
