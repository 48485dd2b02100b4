import MessageExchange.Proofs.Options.Strings

/-!
# How tokens are written

`Lexed tokens text` says that a text is a row of tokens with white space before
each and after the last.  `tokens?` finds the tokens of a text that is written so
and refuses every other text (`tokens?_eq_some_iff`).

A text inside a string is read after pieces that are already there.  What the
reader makes of it is said for the pieces, since a character is complete only when
the string is.
-/

namespace MessageExchange.Json

/-- White space between tokens. -/
def Gap (text : List Char) : Prop := ∀ c ∈ text, c = ' ' ∨ c = '\t' ∨ c = '\n' ∨ c = '\r'

/-- The characters that are a token. -/
def marks : List (Char × Token) :=
  [('\x7b', .openBrace), ('\x7d', .closeBrace), (':', .colon), (',', .comma)]

/-- The text of a token. -/
inductive Token.Text : Token → List Char → Prop
  | mark {c : Char} {token : Token} (known : (c, token) ∈ marks) : Text token [c]
  | string {string body : List Char} (spelled : Spelled string body) :
      Text (.string string) ('"' :: (body ++ ['"']))

/-- A row of tokens with the white space around them. -/
inductive Lexed : List Token → List Char → Prop
  | nil {gap : List Char} (blank : Gap gap) : Lexed [] gap
  | cons {gap text rest : List Char} {token : Token} {tokens : List Token} (blank : Gap gap)
      (first : Token.Text token text) (others : Lexed tokens rest) :
      Lexed (token :: tokens) (gap ++ (text ++ rest))

/-! ## White space and marks -/

theorem isSpace_iff {c : Char} : isSpace c ↔ c = ' ' ∨ c = '\t' ∨ c = '\n' ∨ c = '\r' := by
  simp only [isSpace, Bool.or_eq_true, decide_eq_true_eq, or_assoc]

theorem punctuation?_eq_some_iff {c : Char} {token : Token} :
    punctuation? c = some token ↔ (c, token) ∈ marks := by
  constructor
  · intro h
    unfold punctuation? at h
    split at h <;> first | (cases h; decide) | cases h
  · intro h
    simp only [marks, List.mem_cons, List.not_mem_nil, or_false, Prod.mk.injEq] at h
    rcases h with ⟨rfl, rfl⟩ | ⟨rfl, rfl⟩ | ⟨rfl, rfl⟩ | ⟨rfl, rfl⟩ <;> rfl

/-- White space is no token and starts none. -/
theorem tokens?_space {c : Char} (h : isSpace c) (text : List Char) :
    tokens? (c :: text) = tokens? text := by
  rw [tokens?, if_pos h]
  rintro rfl
  exact absurd h (by decide)

theorem tokens?_gap {gap : List Char} (h : Gap gap) (text : List Char) :
    tokens? (gap ++ text) = tokens? text := by
  induction gap with
  | nil => rfl
  | cons c gap ih =>
      rw [List.cons_append, tokens?_space (isSpace_iff.2 (h c List.mem_cons_self)),
        ih fun d hd => h d (List.mem_cons_of_mem c hd)]

theorem tokens?_mark {c : Char} {token : Token} (h : (c, token) ∈ marks) (text : List Char) :
    tokens? (c :: text) = (tokens? text).map (token :: ·) := by
  have hc : ¬isSpace c ∧ c ≠ '"' := by
    simp only [marks, List.mem_cons, List.not_mem_nil, or_false, Prod.mk.injEq] at h
    rcases h with ⟨rfl, -⟩ | ⟨rfl, -⟩ | ⟨rfl, -⟩ | ⟨rfl, -⟩ <;> decide
  rw [tokens?, if_neg hc.1, punctuation?_eq_some_iff.2 h]
  · rfl
  · exact hc.2

theorem Lexed.space {c : Char} {tokens : List Token} {text : List Char} (hc : isSpace c)
    (h : Lexed tokens text) : Lexed tokens (c :: text) := by
  have hgap {gap : List Char} (blank : Gap gap) : Gap (c :: gap) := by
    intro d hd
    rcases List.mem_cons.1 hd with rfl | hd
    · exact isSpace_iff.1 hc
    · exact blank d hd
  cases h with
  | nil blank => exact .nil (hgap blank)
  | cons blank first others => exact .cons (hgap blank) first others

/-! ## Strings -/

theorem stringTokens?_piece {piece : Piece} {text : List Char} (h : Piece.Text piece text)
    (before : List Piece) (rest : List Char) :
    stringTokens? before (text ++ rest) = stringTokens? (piece :: before) rest := by
  cases h with
  | @raw c quote backslash control =>
      rw [List.singleton_append, stringTokens?]
      · rw [if_neg]
        simp only [Bool.or_eq_true, decide_eq_true_eq, not_or]
        exact ⟨by omega, backslash⟩
      · exact quote
      · exact fun _ _ _ _ _ h => absurd h backslash
      · exact fun _ _ h => absurd h backslash
  | @letter l c known =>
      rw [List.cons_append, List.singleton_append, stringTokens?, escaped?_eq_some_iff.2 known]
      · rfl
      · rintro _ _ _ _ _ rfl
        exact absurd (escaped?_eq_some_iff.2 known) (by simp [escaped?])
  | unit escape =>
      obtain ⟨fits, ha, hb, hc, hd⟩ := escape
      rw [List.cons_append, List.cons_append, List.cons_append, List.cons_append, List.cons_append,
        List.singleton_append, stringTokens?, hexUnit?_eq_some_iff.2 (.digits fits ha hb hc hd)]
      rfl

theorem stringTokens?_texts {pieces : List Piece} {text : List Char} (h : Piece.Texts pieces text)
    (before : List Piece) (rest : List Char) :
    stringTokens? before (text ++ '"' :: rest) =
      (Piece.join? (before.reverse ++ pieces)).bind fun string =>
        (tokens? rest).map (.string string :: ·) := by
  induction h generalizing before with
  | nil =>
      rw [List.nil_append, stringTokens?, List.append_nil]
      rfl
  | cons first others ih =>
      rw [List.append_assoc, stringTokens?_piece first, ih, List.reverse_cons, List.append_assoc,
        List.singleton_append]

/-! ## Tokens -/

theorem tokens?_append {tokens : List Token} {text : List Char} (h : Lexed tokens text)
    (rest : List Char) : tokens? (text ++ rest) = (tokens? rest).map (tokens ++ ·) := by
  induction h with
  | nil blank =>
      rw [tokens?_gap blank]
      exact Option.map_id'.symm
  | @cons gap text others token tokens blank first _ ih =>
      have hmap : ((tokens? rest).map (tokens ++ ·)).map (token :: ·) =
          (tokens? rest).map (token :: tokens ++ ·) := Option.map_map ..
      rw [List.append_assoc, List.append_assoc, tokens?_gap blank]
      cases first with
      | mark known => rw [List.singleton_append, tokens?_mark known, ih, hmap]
      | @string string body spelled =>
          obtain ⟨pieces, hpieces, hjoin⟩ := spelled_iff.1 spelled
          rw [List.cons_append, List.append_assoc, List.singleton_append, tokens?,
            stringTokens?_texts hpieces, List.reverse_nil, List.nil_append, hjoin, Option.bind_some,
            ih, hmap]

theorem tokens?_of_lexed {tokens : List Token} {text : List Char} (h : Lexed tokens text) :
    tokens? text = some tokens := by
  rw [← List.append_nil text, tokens?_append h, tokens?, Option.map_some, List.append_nil]

/-- The tokens of a text that starts inside a string, after some pieces of it. -/
inductive StringLexed (before : List Piece) : List Token → List Char → Prop
  | close {pieces : List Piece} {body string rest : List Char} {tokens : List Token}
      (texts : Piece.Texts pieces body)
      (joined : Piece.join? (before.reverse ++ pieces) = some string)
      (others : Lexed tokens rest) :
      StringLexed before (.string string :: tokens) (body ++ '"' :: rest)

theorem StringLexed.piece {before : List Piece} {piece : Piece} {text rest : List Char}
    {tokens : List Token} (first : Piece.Text piece text)
    (h : StringLexed (piece :: before) tokens rest) : StringLexed before tokens (text ++ rest) := by
  cases h with
  | close texts joined others =>
      rw [List.reverse_cons, List.append_assoc, List.singleton_append] at joined
      rw [← List.append_assoc]
      exact .close (.cons first texts) joined others

/-- What is read outside a string is a row of tokens, and what is read inside one is the rest of
the string and a row of tokens. -/
theorem lexed_and_stringLexed :
    (∀ text tokens, tokens? text = some tokens → Lexed tokens text) ∧
      ∀ before text tokens, stringTokens? before text = some tokens →
        StringLexed before tokens text := by
  apply tokens?.mutual_induct
  case case1 =>
    intro tokens h
    cases h
    exact .nil (List.forall_mem_nil _)
  case case2 =>
    intro rest ih tokens h
    rw [tokens?] at h
    cases ih tokens h with
    | @close pieces body string rest tokens texts joined others =>
        have hspelled : Spelled string body := spelled_iff.2 ⟨pieces, texts, joined⟩
        have hlexed := Lexed.cons (List.forall_mem_nil _) (.string hspelled) others
        rwa [List.nil_append, List.cons_append, List.append_assoc, List.singleton_append] at hlexed
  case case3 =>
    intro c rest hquote hspace ih tokens h
    rw [tokens?_space hspace] at h
    exact (ih tokens h).space hspace
  case case4 =>
    intro c rest hquote hspace ih tokens h
    rw [tokens?, if_neg hspace] at h
    · obtain ⟨token, htoken, h⟩ := Option.bind_eq_some_iff.1 h
      obtain ⟨others, hothers, rfl⟩ := Option.map_eq_some_iff.1 h
      exact .cons (List.forall_mem_nil _) (.mark (punctuation?_eq_some_iff.1 htoken))
        (ih others hothers)
    · exact hquote
  case case5 =>
    intro before tokens h
    cases h
  case case6 =>
    intro before rest ih tokens h
    rw [stringTokens?] at h
    obtain ⟨string, hjoin, h⟩ := Option.bind_eq_some_iff.1 h
    obtain ⟨others, hothers, rfl⟩ := Option.map_eq_some_iff.1 h
    rw [← List.append_nil before.reverse] at hjoin
    exact .close .nil hjoin (ih others hothers)
  case case7 =>
    intro before a b c d rest ih tokens h
    rw [stringTokens?] at h
    obtain ⟨n, hunit, h⟩ := Option.bind_eq_some_iff.1 h
    exact (ih n tokens h).piece (.unit (hexUnit?_eq_some_iff.1 hunit))
  case case8 =>
    intro before letter rest hunit ih tokens h
    rw [stringTokens?] at h
    · obtain ⟨c, hletter, h⟩ := Option.bind_eq_some_iff.1 h
      exact (ih c tokens h).piece (.letter (escaped?_eq_some_iff.1 hletter))
    · exact hunit
  case case9 =>
    intro before c rest hquote hunit hletter hrefused tokens h
    rw [stringTokens?, if_pos hrefused] at h
    · cases h
    · exact hquote
    · exact hunit
    · exact hletter
  case case10 =>
    intro before c rest hquote hunit hletter hallowed ih tokens h
    rw [stringTokens?, if_neg hallowed] at h
    · simp only [Bool.or_eq_true, decide_eq_true_eq, not_or, Nat.not_lt] at hallowed
      exact (ih tokens h).piece (.raw hquote hallowed.2 hallowed.1)
    · exact hquote
    · exact hunit
    · exact hletter

/-- The tokens of a text are those that it is written with. -/
theorem tokens?_eq_some_iff {text : List Char} {tokens : List Token} :
    tokens? text = some tokens ↔ Lexed tokens text :=
  ⟨lexed_and_stringLexed.1 text tokens, tokens?_of_lexed⟩

end MessageExchange.Json
