import MessageExchange.Options.Decoder
import MessageExchange.Proofs.Options.Objects
import MessageExchange.Proofs.Text.Ascii

/-!
# The grammar of JSON

`Document write data text` says that a text is JSON and what it says.  The rules are
those of the JSON grammar, one constructor for each.  White space belongs to the six
structural characters, on both sides of each, and to the two ends of a document.

A text is a row of symbols of any kind.  `write` gives the symbols of a character:
the character itself, or its bytes.

Inside a string the grammar counts UTF-16 units, since an escape gives one of them
and a character above U+FFFF takes two escapes.  A string is in the text if the units
are its own.

`decoder.ReadsText` and `decoder.ReadsBytes` say that a decoder reads what the
grammar derives.  For an object of strings the grammar derives what is `Written`
(`document_object_iff`), whatever the symbols are.
-/

namespace MessageExchange.Json.Grammar

/-! ## Data -/

/-- What a JSON text says. -/
inductive Data where
  | null
  | bool (value : Bool)
  /-- A number, by its literal. -/
  | number (literal : List Char)
  | string (value : String)
  | array (items : List Data)
  | object (members : List (String × Data))

/-- A member whose value is a string. -/
def stringMember (member : String × String) : String × Data := (member.1, .string member.2)

/-- An object whose values are strings. -/
def Data.ofStrings (members : List (String × String)) : Data := .object (members.map stringMember)

/-- The UTF-16 units of a character. -/
def units (c : Char) : List Nat :=
  if c.toNat < 0x10000 then [c.toNat]
  else [0xD800 + (c.toNat - 0x10000) / 0x400, 0xDC00 + (c.toNat - 0x10000) % 0x400]

/-- One digit at least. -/
def Digits (text : List Char) : Prop := text ≠ [] ∧ ∀ c ∈ text, c.isDigit = true

/-- The literals of numbers. -/
inductive Number : List Char → Prop
  | parts {sign whole fraction exponent : List Char} :
      sign ∈ [[], ['-']] →
      Digits whole → (whole.head? = some '0' → whole = ['0']) →
      (fraction = [] ∨ ∃ digits, Digits digits ∧ fraction = '.' :: digits) →
      (exponent = [] ∨ ∃ e ∈ ['e', 'E'], ∃ mark ∈ [[], ['+'], ['-']], ∃ digits, Digits digits ∧
        exponent = e :: (mark ++ digits)) →
      Number (sign ++ (whole ++ (fraction ++ exponent)))

/-! ## Rules -/

section
variable {α : Type} (write : Char → List α)

/-- The symbols of characters in a row. -/
def spell (chars : List Char) : List α := chars.flatMap write

/-- White space. -/
inductive Space : List α → Prop
  | nil : Space []
  | cons {c : Char} {rest : List α} :
      c ∈ [' ', '\t', '\n', '\r'] → Space rest → Space (write c ++ rest)

/-- A structural character with the white space on its sides. -/
inductive Mark (c : Char) : List α → Prop
  | around {before after : List α} :
      Space write before → Space write after → Mark c (before ++ (write c ++ after))

/-- A character of a string, with the units that it gives. -/
inductive StringChar : List Nat → List α → Prop
  | unescaped {c : Char} :
      0x20 ≤ c.toNat → c ≠ '"' → c ≠ '\\' → StringChar (units c) (write c)
  | letter {l c : Char} : (l, c) ∈ letters → StringChar (units c) (spell write ['\\', l])
  | hex {n : Nat} {escape : List Char} :
      UnitEscape n escape → StringChar [n] (spell write escape)

/-- Characters of a string in a row. -/
inductive StringChars : List Nat → List α → Prop
  | nil : StringChars [] []
  | cons {first others : List Nat} {text rest : List α} :
      StringChar write first text → StringChars others rest →
      StringChars (first ++ others) (text ++ rest)

/-- A string between quotation marks. -/
inductive StringText (s : String) : List α → Prop
  | quoted {body : List α} :
      StringChars write (s.toList.flatMap units) body →
      StringText s (write '"' ++ (body ++ write '"'))

/-- Items with commas between them, one at least. -/
inductive Row {β : Type} (Item : β → List α → Prop) : List β → List α → Prop
  | one {item : β} {text : List α} : Item item text → Row Item [item] text
  | more {item : β} {items : List β} {text comma rest : List α} :
      Item item text → Mark write ',' comma → Row Item items rest →
      Row Item (item :: items) (text ++ (comma ++ rest))

/-- What stands between two brackets. -/
inductive Inside {β : Type} (Item : β → List α → Prop) : List β → List α → Prop
  | nothing : Inside Item [] []
  | row {items : List β} {text : List α} : Row write Item items text → Inside Item items text

/-- A name and a value. -/
inductive Member (Value : Data → List α → Prop) : String × Data → List α → Prop
  | pair {name : String} {value : Data} {left colon right : List α} :
      StringText write name left → Mark write ':' colon → Value value right →
      Member Value (name, value) (left ++ (colon ++ right))

/-- A value. -/
inductive Value : Data → List α → Prop
  | null : Value .null (spell write "null".toList)
  | bool {value : Bool} : Value (.bool value) (spell write (toString value).toList)
  | number {literal : List Char} : Number literal → Value (.number literal) (spell write literal)
  | string {s : String} {text : List α} : StringText write s text → Value (.string s) text
  | array {items : List Data} {left body right : List α} :
      Mark write '[' left → Inside write Value items body → Mark write ']' right →
      Value (.array items) (left ++ (body ++ right))
  | object {members : List (String × Data)} {left body right : List α} :
      Mark write '\x7b' left → Inside write (Member write Value) members body →
      Mark write '\x7d' right → Value (.object members) (left ++ (body ++ right))

/-- A value with white space around it. -/
inductive Document (data : Data) : List α → Prop
  | around {before text after : List α} :
      Space write before → Value write data text → Space write after →
      Document data (before ++ (text ++ after))

/-! ## Rows of symbols -/

@[simp] theorem spell_nil : spell write [] = [] := rfl

@[simp] theorem spell_cons (c : Char) (chars : List Char) :
    spell write (c :: chars) = write c ++ spell write chars := List.flatMap_cons

@[simp] theorem spell_append (chars others : List Char) :
    spell write (chars ++ others) = spell write chars ++ spell write others := List.flatMap_append

end

theorem spell_singleton (chars : List Char) : spell (fun c => [c]) chars = chars :=
  List.flatMap_singleton' chars

variable {α : Type} {write : Char → List α}

theorem space_iff {text : List α} :
    Space write text ↔ ∃ gap, Gap gap ∧ text = spell write gap := by
  constructor
  · intro h
    induction h with
    | nil => exact ⟨[], List.forall_mem_nil _, rfl⟩
    | @cons c rest hc _ ih =>
        obtain ⟨gap, hgap, rfl⟩ := ih
        exact ⟨c :: gap, List.forall_mem_cons.2 ⟨by simpa using hc, hgap⟩, rfl⟩
  · rintro ⟨gap, hgap, rfl⟩
    induction gap with
    | nil => exact .nil
    | cons c gap ih =>
        obtain ⟨hc, hgap⟩ := List.forall_mem_cons.1 hgap
        exact .cons (by simpa using hc) (ih hgap)

theorem mark_iff {c : Char} {text : List α} :
    Mark write c text ↔
      ∃ before after, Gap before ∧ Gap after ∧ text = spell write (before ++ c :: after) := by
  constructor
  · rintro ⟨hbefore, hafter⟩
    obtain ⟨before, hgap, rfl⟩ := space_iff.1 hbefore
    obtain ⟨after, hgap', rfl⟩ := space_iff.1 hafter
    exact ⟨before, after, hgap, hgap', by simp⟩
  · rintro ⟨before, after, hgap, hgap', rfl⟩
    rw [spell_append, spell_cons]
    exact .around (space_iff.2 ⟨before, hgap, rfl⟩) (space_iff.2 ⟨after, hgap', rfl⟩)

/-! ## Units and pieces -/

/-- A character has one unit, which is no surrogate, or it has a pair of them. -/
theorem units_cases (c : Char) :
    (units c = [c.toNat] ∧ (c.toNat < 0xD800 ∨ 0xE000 ≤ c.toNat)) ∨
      ∃ high low, units c = [high, low] ∧ isHighSurrogate high ∧ isLowSurrogate low ∧
        pairChar high low = c := by
  by_cases h : c.toNat < 0x10000
  · exact .inl ⟨if_pos h, (toNat_lt_or_le c).1⟩
  · obtain ⟨hhigh, hlow, hpair⟩ := pairChar_units (Nat.not_lt.1 h)
    exact .inr ⟨_, _, if_neg h, hhigh, hlow, hpair⟩

theorem units_of_fits {c : Char} (h : c.toNat < 0x10000) : units c = [c.toNat] := if_pos h

theorem units_of_large {c : Char} (h : 0x10000 ≤ c.toNat) :
    units c = [0xD800 + (c.toNat - 0x10000) / 0x400, 0xDC00 + (c.toNat - 0x10000) % 0x400] :=
  if_neg (Nat.not_lt.2 h)

/-- The units of a piece. -/
def pieceUnits : Piece → List Nat
  | .char c => units c
  | .unit n => [n]

/-- The units of a character are joined to it. -/
theorem join?_units_append (c : Char) (rest : List Piece) :
    Piece.join? ((units c).map .unit ++ rest) = (Piece.join? rest).map (c :: ·) := by
  rcases units_cases c with ⟨hunits, hsingle⟩ | ⟨high, low, hunits, hhigh, hlow, hpair⟩
  · have hjoin := Piece.join?_unit_cons hsingle rest
    rw [Char.ofNat_toNat] at hjoin
    rw [hunits]
    exact hjoin
  · rw [hunits, ← hpair]
    exact Piece.join?_pair_cons hhigh hlow rest

theorem join?_units (string : List Char) :
    Piece.join? ((string.flatMap units).map .unit) = some string := by
  induction string with
  | nil => rfl
  | cons c string ih =>
      rw [List.flatMap_cons, List.map_append, join?_units_append, ih]
      rfl

/-- No character starts with the second half of a pair. -/
theorem join?_high_units {n : Nat} (h : isHighSurrogate n) (c : Char) (rest : List Piece) :
    Piece.join? (.unit n :: ((units c).map .unit ++ rest)) = none := by
  rcases units_cases c with ⟨hunits, hsingle⟩ | ⟨high, low, hunits, hhigh, -, -⟩
  · have hlow : isLowSurrogate c.toNat = false := by
      simp only [isLowSurrogate, Bool.and_eq_false_iff, decide_eq_false_iff_not]
      omega
    rw [hunits]
    simp [Piece.join?, h, hlow]
  · have hlow : isLowSurrogate high = false := by
      simp only [isHighSurrogate, isLowSurrogate, Bool.and_eq_true, Bool.and_eq_false_iff,
        decide_eq_true_eq, decide_eq_false_iff_not] at hhigh ⊢
      omega
    rw [hunits]
    simp [Piece.join?, h, hlow]

theorem join?_low {n : Nat} (h : isLowSurrogate n) (rest : List Piece) :
    Piece.join? (.unit n :: rest) = none := by
  have hhigh : isHighSurrogate n = false := by
    simp only [isLowSurrogate, isHighSurrogate, Bool.and_eq_true, Bool.and_eq_false_iff,
      decide_eq_true_eq, decide_eq_false_iff_not] at h ⊢
    omega
  cases rest with
  | nil => simp [Piece.join?, h]
  | cons piece rest =>
      cases piece with
      | char _ => simp [Piece.join?, h]
      | unit _ => simp [Piece.join?, h, hhigh]

/-- Pieces are joined by their units. -/
theorem join?_eq_units (pieces : List Piece) :
    Piece.join? ((pieces.flatMap pieceUnits).map .unit) = Piece.join? pieces := by
  fun_induction Piece.join? pieces with
  | case1 => rfl
  | case2 c pieces ih =>
      rw [List.flatMap_cons, List.map_append, pieceUnits, join?_units_append, ih]
  | case3 high low pieces hhigh hlow ih =>
      rw [← ih]
      exact Piece.join?_pair_cons hhigh hlow _
  | case4 high low pieces hhigh hlow => simp [pieceUnits, Piece.join?, hhigh, hlow]
  | case5 high low pieces hhigh hlow => simp [pieceUnits, Piece.join?, hhigh, hlow]
  | case6 n low pieces hhigh hlow ih =>
      rw [← ih]
      simp [pieceUnits, Piece.join?, hhigh, hlow]
  | case7 n pieces hlast hsurrogate =>
      rcases Bool.or_eq_true _ _ ▸ hsurrogate with hhigh | hlow
      · cases pieces with
        | nil => simp [pieceUnits, Piece.join?, hhigh]
        | cons piece pieces =>
            cases piece with
            | char c =>
                rw [List.flatMap_cons, List.flatMap_cons, List.map_append, List.map_append]
                exact join?_high_units hhigh c _
            | unit low => exact absurd rfl (hlast low pieces)
      · exact join?_low hlow _
  | case8 n pieces hlast hsurrogate ih =>
      rw [← ih]
      refine Piece.join?_unit_cons ?_ _
      simp only [isHighSurrogate, isLowSurrogate, Bool.or_eq_true, Bool.and_eq_true,
        decide_eq_true_eq] at hsurrogate
      omega

/-! ## Strings -/

theorem UnitEscape.fits {n : Nat} {escape : List Char} (h : UnitEscape n escape) : n < 0x10000 := by
  cases h with
  | digits fits _ _ _ _ => exact fits

theorem stringChars_of_spelled {string body : List Char} (h : Spelled string body) :
    StringChars write (string.flatMap units) (spell write body) := by
  induction h with
  | nil => exact .nil
  | @cons c text string rest first _ ih =>
      rw [List.flatMap_cons, spell_append]
      cases first with
      | raw quote backslash control =>
          rw [spell_cons, spell_nil, List.append_nil]
          exact .cons (.unescaped control quote backslash) ih
      | letter known => exact .cons (.letter known) ih
      | unit escape =>
          rw [units_of_fits (UnitEscape.fits escape)]
          exact .cons (.hex escape) ih
      | pair large first second =>
          have hpair := StringChars.cons (.hex first) (.cons (.hex second) ih)
          rw [units_of_large large, spell_append, List.append_assoc]
          exact hpair

theorem StringChars.exists_texts {all : List Nat} {body : List α} (h : StringChars write all body) :
    ∃ pieces text, Piece.Texts pieces text ∧ pieces.flatMap pieceUnits = all ∧
      body = spell write text := by
  induction h with
  | nil => exact ⟨[], [], .nil, rfl, rfl⟩
  | cons first _ ih =>
      obtain ⟨pieces, text, htexts, rfl, rfl⟩ := ih
      cases first with
      | @unescaped c control quote backslash =>
          exact ⟨.char c :: pieces, _, .cons (.raw quote backslash control) htexts, rfl, by simp⟩
      | @letter l c known =>
          exact ⟨.char c :: pieces, _, .cons (.letter known) htexts, rfl, by simp⟩
      | @hex n escape hescape =>
          exact ⟨.unit n :: pieces, _, .cons (.unit hescape) htexts, rfl, by simp⟩

/-- The grammar counts units where a spelling goes from character to character. -/
theorem stringChars_iff {string : List Char} {body : List α} :
    StringChars write (string.flatMap units) body ↔
      ∃ text, Spelled string text ∧ body = spell write text := by
  constructor
  · intro h
    obtain ⟨pieces, text, htexts, hunits, rfl⟩ := h.exists_texts
    refine ⟨text, spelled_of_texts htexts ?_, rfl⟩
    rw [← join?_eq_units, hunits, join?_units]
  · rintro ⟨text, hspelled, rfl⟩
    exact stringChars_of_spelled hspelled

theorem stringText_iff {s : String} {text : List α} :
    StringText write s text ↔ ∃ quoted, Quoted s quoted ∧ text = spell write quoted := by
  constructor
  · rintro ⟨hbody⟩
    obtain ⟨body, hspelled, rfl⟩ := stringChars_iff.1 hbody
    exact ⟨_, .quotes hspelled, by simp⟩
  · rintro ⟨quoted, hquoted, rfl⟩
    cases hquoted with
    | quotes spelled =>
        rw [spell_cons, spell_append, spell_cons, spell_nil, List.append_nil]
        exact .quoted (stringChars_of_spelled spelled)

/-! ## Objects of strings -/

variable {key value : String} {members : List (String × String)}

/-- The grammar counts the white space at the ends of a member to the marks around it. -/
theorem Member.exists_core {text : List α}
    (h : Member write (Value write) (key, .string value) text) :
    ∃ core, text = spell write core ∧ ∀ before after, Gap before → Gap after →
      Json.Member (key, value) (before ++ (core ++ after)) := by
  cases h with
  | pair hname hcolon hvalue =>
      cases hvalue with
      | string hvalue =>
          obtain ⟨left, hleft, rfl⟩ := stringText_iff.1 hname
          obtain ⟨g, g', hg, hg', rfl⟩ := mark_iff.1 hcolon
          obtain ⟨right, hright, rfl⟩ := stringText_iff.1 hvalue
          refine ⟨left ++ (g ++ ':' :: (g' ++ right)), by simp,
            fun before after hbefore hafter => ?_⟩
          simp only [List.append_assoc, List.cons_append]
          exact .intro hbefore hleft hg hg' hright hafter

theorem exists_member_core {member : String × String} {text : List Char}
    (h : Json.Member member text) :
    ∃ before core after, text = before ++ (core ++ after) ∧ Gap before ∧ Gap after ∧
      Member write (Value write) (stringMember member) (spell write core) := by
  cases h with
  | @intro key value g₁ g₂ g₃ g₄ left right blank₁ name blank₂ blank₃ content blank₄ =>
      refine ⟨g₁, left ++ (g₂ ++ ':' :: g₃ ++ right), g₄, by simp, blank₁, blank₄, ?_⟩
      rw [spell_append, spell_append]
      exact .pair (stringText_iff.2 ⟨left, name, rfl⟩)
        (mark_iff.2 ⟨g₂, g₃, blank₂, blank₃, rfl⟩)
        (.string (stringText_iff.2 ⟨right, content, rfl⟩))

theorem Row.exists_core {text : List α}
    (h : Row write (Member write (Value write)) (members.map stringMember) text) :
    ∃ core, text = spell write core ∧ ∀ before after, Gap before → Gap after →
      Members members (before ++ (core ++ after)) := by
  generalize hitems : members.map stringMember = items at h
  induction h generalizing members with
  | one hmember =>
      obtain ⟨member, rfl, rfl⟩ := List.map_eq_singleton_iff.1 hitems
      obtain ⟨core, rfl, hcore⟩ := hmember.exists_core
      exact ⟨core, rfl, fun before after hbefore hafter => .one (hcore _ _ hbefore hafter)⟩
  | more hmember hcomma _ ih =>
      obtain ⟨member, members, rfl, rfl, hothers⟩ := List.map_eq_cons_iff.1 hitems
      obtain ⟨core, rfl, hcore⟩ := hmember.exists_core
      obtain ⟨g, g', hg, hg', rfl⟩ := mark_iff.1 hcomma
      obtain ⟨cores, rfl, hcores⟩ := ih hothers
      refine ⟨core ++ (g ++ ',' :: g' ++ cores), by simp, fun before after hbefore hafter => ?_⟩
      have hmembers := Members.more (hcore before g hbefore hg) (hcores g' after hg' hafter)
      simpa only [List.append_assoc, List.cons_append] using hmembers

theorem exists_row_core {text : List Char} (h : Members members text) :
    ∃ before core after, text = before ++ (core ++ after) ∧ Gap before ∧ Gap after ∧
      Row write (Member write (Value write)) (members.map stringMember) (spell write core) := by
  induction h with
  | one only =>
      obtain ⟨before, core, after, rfl, hbefore, hafter, hmember⟩ := exists_member_core only
      exact ⟨before, core, after, rfl, hbefore, hafter, .one hmember⟩
  | more first _ ih =>
      obtain ⟨before, core, g, rfl, hbefore, hg, hmember⟩ := exists_member_core first
      obtain ⟨g', cores, after, rfl, hg', hafter, hrow⟩ := ih
      refine ⟨before, core ++ (g ++ ',' :: g' ++ cores), after, by simp, hbefore, hafter, ?_⟩
      rw [spell_append, spell_append]
      exact .more hmember (mark_iff.2 ⟨g, g', hg, hg', rfl⟩) hrow

theorem gap_append {gap gap' : List Char} (h : Gap gap) (h' : Gap gap') : Gap (gap ++ gap') :=
  List.forall_mem_append.2 ⟨h, h'⟩

/-- What stands between the braces, with the white space of the two braces. -/
theorem Inside.content {text : List α}
    (h : Inside write (Member write (Value write)) (members.map stringMember) text) :
    ∃ core, text = spell write core ∧ ∀ before after, Gap before → Gap after →
      Content members (before ++ (core ++ after)) := by
  generalize hitems : members.map stringMember = items at h
  cases h with
  | nothing =>
      cases List.map_eq_nil_iff.1 hitems
      exact ⟨[], rfl, fun before after hbefore hafter => .empty (gap_append hbefore hafter)⟩
  | row hrow =>
      obtain ⟨core, rfl, hcore⟩ := (hitems ▸ hrow).exists_core
      exact ⟨core, rfl, fun before after hbefore hafter => .members (hcore _ _ hbefore hafter)⟩

theorem exists_inside {text : List Char} (h : Content members text) :
    ∃ before core after, text = before ++ (core ++ after) ∧ Gap before ∧ Gap after ∧
      Inside write (Member write (Value write)) (members.map stringMember) (spell write core) := by
  cases h with
  | empty blank => exact ⟨text, [], [], by simp, blank, List.forall_mem_nil _, .nothing⟩
  | members nonempty =>
      obtain ⟨before, core, after, rfl, hbefore, hafter, hrow⟩ := exists_row_core nonempty
      exact ⟨before, core, after, rfl, hbefore, hafter, .row hrow⟩

/-- The grammar derives an object of strings from exactly the texts that it is written as. -/
theorem document_object_iff {text : List α} :
    Document write (.ofStrings members) text ↔
      ∃ chars, Written members chars ∧ text = spell write chars := by
  constructor
  · rintro ⟨hstart, hvalue, hend⟩
    cases hvalue with
    | object hopen hinside hclose =>
        obtain ⟨before, hbefore, rfl⟩ := space_iff.1 hstart
        obtain ⟨g₁, g₂, hg₁, hg₂, rfl⟩ := mark_iff.1 hopen
        obtain ⟨core, rfl, hcore⟩ := hinside.content
        obtain ⟨g₃, g₄, hg₃, hg₄, rfl⟩ := mark_iff.1 hclose
        obtain ⟨after, hafter, rfl⟩ := space_iff.1 hend
        exact ⟨_, .object (gap_append hbefore hg₁) (hcore g₂ g₃ hg₂ hg₃)
          (gap_append hg₄ hafter), by simp⟩
  · rintro ⟨chars, ⟨hbefore, hcontent, hafter⟩, rfl⟩
    obtain ⟨g, core, g', rfl, hg, hg', hinside⟩ := exists_inside hcontent
    have hvalue := Value.object (mark_iff.2 ⟨_, g, hbefore, hg, rfl⟩) hinside
      (mark_iff.2 ⟨g', _, hg', hafter, rfl⟩)
    have hdocument := Document.around .nil hvalue .nil
    simpa [Data.ofStrings] using hdocument

theorem document_text_iff {chars : List Char} :
    Document (fun c => [c]) (.ofStrings members) chars ↔ Written members chars := by
  simp only [document_object_iff, spell_singleton, exists_eq_right']

theorem document_bytes_iff {bytes : List UInt8} :
    Document String.utf8EncodeChar (.ofStrings members) bytes ↔
      ∃ text : String, Text.Encodes text.toList bytes ∧ Written members text.toList := by
  rw [document_object_iff]
  constructor
  · rintro ⟨chars, hwritten, hbytes⟩
    refine ⟨String.ofList chars, ?_, ?_⟩ <;> rw [String.toList_ofList]
    · exact Text.encodes_iff.2 hbytes
    · exact hwritten
  · rintro ⟨text, hencodes, hwritten⟩
    exact ⟨text.toList, hwritten, Text.encodes_iff.1 hencodes⟩

end MessageExchange.Json.Grammar

namespace MessageExchange.Json.Decoder

open Grammar (Document)

/-! ## Decoders -/

/-- From a text the decoder reads the members that the grammar derives, in their order, and refuses
a text from which the grammar derives no object of strings. -/
def ReadsText (decoder : Decoder) : Prop :=
  ∀ text members, decoder.ofText text = .ok members ↔
    Document (fun c => [c]) (.ofStrings members) text.toList

/-- From bytes the decoder reads the members that the grammar derives from them in UTF-8. -/
def ReadsBytes (decoder : Decoder) : Prop :=
  ∀ content members, decoder.ofBytes content = .ok members ↔
    Document String.utf8EncodeChar (.ofStrings members) content.data.toList

variable {decoder : Decoder} {members : List (String × String)}

theorem ReadsText.eq_ok_iff (h : decoder.ReadsText) {text : String} :
    decoder.ofText text = .ok members ↔ Written members text.toList :=
  (h text members).trans Grammar.document_text_iff

theorem ReadsBytes.eq_ok_iff (h : decoder.ReadsBytes) {content : ByteArray} :
    decoder.ofBytes content = .ok members ↔
      ∃ text : String, Text.Encodes text.toList content.data.toList ∧
        Written members text.toList :=
  (h content members).trans Grammar.document_bytes_iff

theorem elim_eq_ok_iff {β : Type} {result : Option β} {b : β} :
    result.elim (Except.error "") Except.ok = Except.ok b ↔ result = some b := by
  cases result <;> simp

/-- The strict reader reads the texts of the grammar. -/
theorem readsText_standard : standard.ReadsText := fun _ _ =>
  elim_eq_ok_iff.trans (object?_eq_some_iff.trans Grammar.document_text_iff.symm)

end MessageExchange.Json.Decoder
