import MessageExchange.Text.WhiteSpace
import Mathlib.Data.List.TakeWhile

/-!
# Words and the white space around them

`Spaced ws text` says that a text is the words `ws` in order, set apart by white
space: each word is a non-empty run of other characters, what follows a word is
the end of the text or starts with white space, and there may be white space
before the first word and after the last.  So the words are the maximal runs.

Every text is spaced in exactly one way, and `words` finds it (`spaced_iff`).
-/

namespace MessageExchange.Text

/-! ## White space and words -/

/-- A text of white space only, or of nothing. -/
def Blank (text : List Char) : Prop := ∀ c ∈ text, isWhiteSpace c = true

/-- A text without white space. -/
def Solid (text : List Char) : Prop := ∀ c ∈ text, isWhiteSpace c = false

/-- A text that is over or starts with white space. -/
def Breaks (text : List Char) : Prop := ∀ c ∈ text.head?, isWhiteSpace c = true

/-- A text as words in order, with white space around them. -/
inductive Spaced : List (List Char) → List Char → Prop where
  | blank {gap : List Char} : Blank gap → Spaced [] gap
  /-- One more word before the others. -/
  | word {gap word rest : List Char} {words : List (List Char)} :
      Blank gap → word ≠ [] → Solid word → Breaks rest → Spaced words rest →
      Spaced (word :: words) (gap ++ word ++ rest)

theorem Blank.nil : Blank [] := nofun

theorem Blank.cons {c : Char} {text : List Char} (hc : isWhiteSpace c = true) (h : Blank text) :
    Blank (c :: text) := by
  intro d hd
  rcases List.mem_cons.1 hd with rfl | hd
  · exact hc
  · exact h d hd

theorem Blank.breaks {text : List Char} (h : Blank text) : Breaks text := fun _ hc =>
  h _ (List.mem_of_mem_head? hc)

theorem Solid.nil : Solid [] := nofun

theorem Solid.cons {c : Char} {text : List Char} (hc : isWhiteSpace c = false) (h : Solid text) :
    Solid (c :: text) := by
  intro d hd
  rcases List.mem_cons.1 hd with rfl | hd
  · exact hc
  · exact h d hd

theorem Solid.append {front back : List Char} (hfront : Solid front) (hback : Solid back) :
    Solid (front ++ back) := by
  intro c hc
  rcases List.mem_append.1 hc with hc | hc
  · exact hfront c hc
  · exact hback c hc

theorem isWhiteSpace_of_isDigit {c : Char} (h : c.isDigit = true) : isWhiteSpace c = false := by
  have hbounds : 48 ≤ c.toNat ∧ c.toNat ≤ 57 := Char.isDigit_iff_toNat.1 h
  simp only [isWhiteSpace, Bool.or_eq_false_iff, Bool.and_eq_false_iff, decide_eq_false_iff_not,
    beq_eq_false_iff_ne]
  omega

theorem solid_of_isDigit {digits : List Char} (h : ∀ c ∈ digits, c.isDigit = true) :
    Solid digits := fun c hc => isWhiteSpace_of_isDigit (h c hc)

/-! ## Trimming -/

theorem blank_takeWhile (text : List Char) : Blank (text.takeWhile isWhiteSpace) := fun _ hc =>
  List.mem_takeWhile_imp hc

theorem trimStart_blank_append {gap : List Char} (h : Blank gap) (text : List Char) :
    trimStart (gap ++ text) = trimStart text :=
  List.dropWhile_append_of_pos h

theorem trimStart_cons {c : Char} (h : isWhiteSpace c = false) (rest : List Char) :
    trimStart (c :: rest) = c :: rest := by
  rw [trimStart, List.dropWhile_cons, h, if_neg Bool.false_ne_true]

/-- A text is what trimming takes off its start and what trimming leaves. -/
theorem exists_blank_append_trimStart (text : List Char) :
    ∃ gap, Blank gap ∧ text = gap ++ trimStart text :=
  ⟨_, blank_takeWhile text, List.takeWhile_append_dropWhile.symm⟩

/-! ## Words of parts -/

/-- Words do not cross white space. -/
theorem words_append_cons {c : Char} (hc : isWhiteSpace c = true) (before after : List Char) :
    words (before ++ c :: after) = words before ++ words after := by
  rw [words, List.splitOnP_append_cons before after hc, List.filter_append]
  rfl

theorem words_blank_append {gap : List Char} (h : Blank gap) (text : List Char) :
    words (gap ++ text) = words text := by
  induction gap with
  | nil => rfl
  | cons c gap ih =>
      have hc : isWhiteSpace c = true := h c List.mem_cons_self
      have hcons : words (c :: (gap ++ text)) = words (gap ++ text) := words_append_cons hc [] _
      rw [List.cons_append, hcons]
      exact ih fun d hd => h d (List.mem_cons_of_mem _ hd)

theorem words_blank {gap : List Char} (h : Blank gap) : words gap = [] := by
  have hwords := words_blank_append h []
  rwa [List.append_nil] at hwords

theorem words_solid {word : List Char} (hne : word ≠ []) (h : Solid word) :
    words word = [word] := by
  rw [words, List.splitOnP_eq_singleton h]
  cases word with
  | nil => exact absurd rfl hne
  | cons c rest => rfl

theorem words_solid_append {word rest : List Char} (hne : word ≠ []) (h : Solid word)
    (hrest : Breaks rest) : words (word ++ rest) = word :: words rest := by
  cases rest with
  | nil => rw [List.append_nil, words_solid hne h, words_nil]
  | cons c rest =>
      have hc : isWhiteSpace c = true := hrest c rfl
      have hcons : words (c :: rest) = words rest := words_append_cons hc [] rest
      rw [words_append_cons hc, words_solid hne h, hcons]
      rfl

/-! ## The words of a text -/

theorem words_of_spaced {ws : List (List Char)} {text : List Char} (h : Spaced ws text) :
    words text = ws := by
  induction h with
  | blank hgap => exact words_blank hgap
  | word hgap hne hword hrest _ ih =>
      rw [List.append_assoc, words_blank_append hgap, words_solid_append hne hword hrest, ih]

theorem breaks_dropWhile (text : List Char) :
    Breaks (text.dropWhile fun c => !isWhiteSpace c) := by
  intro c hc
  have hhead := List.head?_dropWhile_not (fun c => !isWhiteSpace c) text
  rw [Option.mem_def.1 hc] at hhead
  simpa using hhead

theorem head_trimStart {text rest : List Char} {c : Char} (h : trimStart text = c :: rest) :
    isWhiteSpace c = false := by
  have hhead := List.head?_dropWhile_not isWhiteSpace text
  rwa [← trimStart, h] at hhead

theorem Spaced.solid {ws : List (List Char)} {text : List Char} (h : Spaced ws text) :
    ∀ word ∈ ws, Solid word := by
  induction h with
  | blank _ => nofun
  | word _ _ hword _ _ ih =>
      intro other hmem
      rcases List.mem_cons.1 hmem with rfl | hmem
      · exact hword
      · exact ih other hmem

/-- Cuts a word off the start of a text and goes on with the rest, which is shorter. -/
theorem exists_spaced (text : List Char) : ∃ ws, Spaced ws text := by
  obtain ⟨gap, hgap, htext⟩ := exists_blank_append_trimStart text
  cases htrim : trimStart text with
  | nil =>
      rw [htrim, List.append_nil] at htext
      exact ⟨[], .blank (htext ▸ hgap)⟩
  | cons c rest =>
      have hc : isWhiteSpace c = false := head_trimStart htrim
      have hsplit := (List.takeWhile_append_dropWhile (p := fun c => !isWhiteSpace c)
        (l := rest)).symm
      have hsolid : Solid (c :: rest.takeWhile fun c => !isWhiteSpace c) :=
        .cons hc fun d hd => by simpa using List.mem_takeWhile_imp hd
      -- The word has at least the character `c`, so what is left after it is shorter.
      have hlength : (rest.dropWhile fun c => !isWhiteSpace c).length < text.length := by
        have hle := (List.dropWhile_sublist (l := rest) fun c => !isWhiteSpace c).length_le
        rw [htext, htrim, List.length_append, List.length_cons]
        omega
      obtain ⟨ws, hws⟩ := exists_spaced (rest.dropWhile fun c => !isWhiteSpace c)
      have hspaced := Spaced.word hgap (List.cons_ne_nil _ _) hsolid (breaks_dropWhile rest) hws
      rw [List.append_assoc, List.cons_append, ← hsplit, ← htrim, ← htext] at hspaced
      exact ⟨_, hspaced⟩
termination_by text.length

/-- The words of a text are the only ones that it is spaced from. -/
theorem spaced_iff {ws : List (List Char)} {text : List Char} :
    Spaced ws text ↔ words text = ws := by
  constructor
  · exact words_of_spaced
  · rintro rfl
    obtain ⟨ws, h⟩ := exists_spaced text
    rwa [words_of_spaced h]

end MessageExchange.Text
