import MessageExchange.Proofs.Options.Tokens

/-!
# How an object is written

`Written members text` says that a text is one JSON object whose values are
strings: braces, and between them members with commas between, each a key, a colon
and a value, with white space wherever two tokens meet and around the object.

`object?` lists the members of a text that is written so, and has no members for
any other text (`object?_eq_some_iff`).  So the members of a text are determined,
and every list of members can be written (`exists_written`).
-/

namespace MessageExchange.Json

/-! ## Objects -/

/-- A string between its quotes. -/
inductive Quoted (string : String) : List Char → Prop
  | quotes {body : List Char} (spelled : Spelled string.toList body) :
      Quoted string ('"' :: (body ++ ['"']))

/-- A key with its value. -/
inductive Member : String × String → List Char → Prop
  | intro {key value : String} {g₁ g₂ g₃ g₄ left right : List Char} (blank₁ : Gap g₁)
      (name : Quoted key left) (blank₂ : Gap g₂) (blank₃ : Gap g₃) (content : Quoted value right)
      (blank₄ : Gap g₄) : Member (key, value) (g₁ ++ (left ++ (g₂ ++ ':' :: (g₃ ++ (right ++ g₄)))))

/-- Members with commas between, one at least. -/
inductive Members : List (String × String) → List Char → Prop
  | one {member : String × String} {text : List Char} (only : Member member text) :
      Members [member] text
  | more {member : String × String} {members : List (String × String)} {text rest : List Char}
      (first : Member member text) (others : Members members rest) :
      Members (member :: members) (text ++ ',' :: rest)

/-- What stands between the braces of an object. -/
inductive Content : List (String × String) → List Char → Prop
  | empty {gap : List Char} (blank : Gap gap) : Content [] gap
  | members {members : List (String × String)} {text : List Char} (nonempty : Members members text) :
      Content members text

/-- One object with white space around it. -/
inductive Written (members : List (String × String)) : List Char → Prop
  | object {before content after : List Char} (blank : Gap before)
      (inside : Content members content) (blank' : Gap after) :
      Written members (before ++ '\x7b' :: (content ++ '\x7d' :: after))

/-- A text of an object starts with white space or a brace, so with a character of ASCII. -/
theorem Written.exists_head {members : List (String × String)} {text : List Char}
    (h : Written members text) : ∃ c rest, text = c :: rest ∧ c.toNat < 0x80 := by
  cases h with
  | @object before content after blank _ _ =>
      cases before with
      | nil => exact ⟨_, _, rfl, by decide⟩
      | cons c before =>
          refine ⟨c, _, rfl, ?_⟩
          rcases blank c List.mem_cons_self with rfl | rfl | rfl | rfl <;> decide

/-! ## Tokens one by one -/

theorem Lexed.mark {gap rest : List Char} {c : Char} {token : Token} {tokens : List Token}
    (blank : Gap gap) (known : (c, token) ∈ marks) (others : Lexed tokens rest) :
    Lexed (token :: tokens) (gap ++ c :: rest) :=
  .cons blank (.mark known) others

theorem Lexed.quoted {gap text rest : List Char} {string : String} {tokens : List Token}
    (blank : Gap gap) (h : Quoted string text) (others : Lexed tokens rest) :
    Lexed (.string string.toList :: tokens) (gap ++ (text ++ rest)) := by
  cases h with
  | quotes spelled => exact .cons blank (.string spelled) others

theorem marks_injective : ∀ x ∈ marks, ∀ y ∈ marks, x.2 = y.2 → x.1 = y.1 := by decide

theorem Lexed.mark_inv {c : Char} {token : Token} {tokens : List Token} {text : List Char}
    (known : (c, token) ∈ marks) (h : Lexed (token :: tokens) text) :
    ∃ gap rest, text = gap ++ c :: rest ∧ Gap gap ∧ Lexed tokens rest := by
  cases h with
  | @cons gap _ rest _ _ blank first others =>
      cases first with
      | @mark d token known' =>
          have hcd : c = d := marks_injective _ known _ known' rfl
          exact ⟨gap, rest, by rw [hcd, List.singleton_append], blank, others⟩
      | string => simp [marks] at known

theorem Lexed.string_inv {string : List Char} {tokens : List Token} {text : List Char}
    (h : Lexed (.string string :: tokens) text) :
    ∃ gap quoted rest, text = gap ++ (quoted ++ rest) ∧ Gap gap ∧
      Quoted (String.ofList string) quoted ∧ Lexed tokens rest := by
  cases h with
  | @cons gap quoted rest _ _ blank first others =>
      cases first with
      | mark known => simp [marks] at known
      | string spelled =>
          refine ⟨gap, _, rest, rfl, blank, .quotes ?_, others⟩
          rwa [String.toList_ofList]

/-! ## Members -/

/-- The tokens of a member and the mark after it. -/
theorem lexed_member_iff {key value : List Char} {c : Char} {token : Token} {tokens : List Token}
    {text : List Char} (known : (c, token) ∈ marks) :
    Lexed (.string key :: .colon :: .string value :: token :: tokens) text ↔
      ∃ body rest, text = body ++ c :: rest ∧
        Member (String.ofList key, String.ofList value) body ∧ Lexed tokens rest := by
  have hcolon : (':', Token.colon) ∈ marks := by decide
  constructor
  · intro h
    obtain ⟨g₁, left, _, rfl, blank₁, name, h⟩ := h.string_inv
    obtain ⟨g₂, _, rfl, blank₂, h⟩ := h.mark_inv hcolon
    obtain ⟨g₃, right, _, rfl, blank₃, content, h⟩ := h.string_inv
    obtain ⟨g₄, rest, rfl, blank₄, h⟩ := h.mark_inv known
    exact ⟨_, rest, by simp only [List.append_assoc, List.cons_append],
      .intro blank₁ name blank₂ blank₃ content blank₄, h⟩
  · rintro ⟨body, rest, rfl, hmember, h⟩
    cases hmember with
    | intro blank₁ name blank₂ blank₃ content blank₄ =>
        simp only [List.append_assoc, List.cons_append]
        have hlexed := Lexed.quoted blank₁ name
          (.mark blank₂ hcolon (.quoted blank₃ content (.mark blank₄ known h)))
        rwa [String.toList_ofList, String.toList_ofList] at hlexed

theorem members_of_lexed {tokens : List Token} {members : List (String × String)} {text : List Char}
    (hread : membersRest? tokens = some members) (h : Lexed tokens text) :
    ∃ body after, text = body ++ '\x7d' :: after ∧ Members members body ∧ Gap after := by
  fun_induction membersRest? tokens generalizing members text with
  | case1 key value =>
      cases hread
      obtain ⟨body, after, rfl, hmember, h⟩ := (lexed_member_iff (c := '\x7d') (by decide)).1 h
      cases h with
      | nil blank => exact ⟨body, after, rfl, .one hmember, blank⟩
  | case2 key value tokens ih =>
      obtain ⟨others, hothers, rfl⟩ := Option.map_eq_some_iff.1 hread
      obtain ⟨first, rest, rfl, hmember, h⟩ := (lexed_member_iff (c := ',') (by decide)).1 h
      obtain ⟨body, after, rfl, hmembers, hafter⟩ := ih hothers h
      exact ⟨first ++ ',' :: body, after, by simp only [List.append_assoc, List.cons_append],
        .more hmember hmembers, hafter⟩
  | case3 => cases hread

theorem lexed_of_members {members : List (String × String)} {body after : List Char}
    (h : Members members body) (hafter : Gap after) :
    ∃ tokens, membersRest? tokens = some members ∧ Lexed tokens (body ++ '\x7d' :: after) := by
  induction h with
  | @one member body only =>
      refine ⟨[.string member.1.toList, .colon, .string member.2.toList, .closeBrace], ?_, ?_⟩
      · simp only [membersRest?, String.ofList_toList]
      · rw [lexed_member_iff (c := '\x7d') (by decide)]
        refine ⟨body, after, rfl, ?_, .nil hafter⟩
        rwa [String.ofList_toList, String.ofList_toList]
  | @more member members first body only others ih =>
      obtain ⟨tokens, hread, hlexed⟩ := ih
      refine ⟨.string member.1.toList :: .colon :: .string member.2.toList :: .comma :: tokens,
        ?_, ?_⟩
      · rw [membersRest?, hread, String.ofList_toList, String.ofList_toList]
        rfl
      · rw [lexed_member_iff (c := ',') (by decide)]
        refine ⟨first, body ++ '\x7d' :: after, by simp only [List.append_assoc, List.cons_append],
          ?_, hlexed⟩
        rwa [String.ofList_toList, String.ofList_toList]

/-! ## The object -/

theorem written_of_members? {tokens : List Token} {members : List (String × String)}
    {text : List Char} (hread : members? tokens = some members) (h : Lexed tokens text) :
    Written members text := by
  have hopen : ('\x7b', Token.openBrace) ∈ marks := by decide
  unfold members? at hread
  split at hread
  · cases hread
    obtain ⟨before, _, rfl, hbefore, h⟩ := h.mark_inv hopen
    obtain ⟨inside, after, rfl, hinside, h⟩ := h.mark_inv (c := '\x7d') (by decide)
    cases h with
    | nil hafter => exact .object hbefore (.empty hinside) hafter
  · obtain ⟨before, rest, rfl, hbefore, h⟩ := h.mark_inv hopen
    obtain ⟨body, after, rfl, hmembers, hafter⟩ := members_of_lexed hread h
    exact .object hbefore (.members hmembers) hafter
  · cases hread

theorem members?_of_written {members : List (String × String)} {text : List Char}
    (h : Written members text) :
    ∃ tokens, Lexed tokens text ∧ members? tokens = some members := by
  have hopen : ('\x7b', Token.openBrace) ∈ marks := by decide
  have hclose : ('\x7d', Token.closeBrace) ∈ marks := by decide
  cases h with
  | object hbefore inside hafter =>
      cases inside with
      | empty hinside =>
          exact ⟨_, .mark hbefore hopen (.mark hinside hclose (.nil hafter)), rfl⟩
      | members hmembers =>
          obtain ⟨tokens, hread, hlexed⟩ := lexed_of_members hmembers hafter
          refine ⟨_, .mark hbefore hopen hlexed, ?_⟩
          -- A brace that closes at once would leave no member to read.
          rw [members?]
          · exact hread
          · rintro rfl
            cases hread

/-- The members of a text are those that it is written with. -/
theorem object?_eq_some_iff {text : String} {members : List (String × String)} :
    object? text = some members ↔ Written members text.toList := by
  rw [object?, Option.bind_eq_some_iff]
  constructor
  · rintro ⟨tokens, hlex, hread⟩
    exact written_of_members? hread (tokens?_eq_some_iff.1 hlex)
  · intro h
    obtain ⟨tokens, hlexed, hread⟩ := members?_of_written h
    exact ⟨tokens, tokens?_eq_some_iff.2 hlexed, hread⟩

example : object? "\x7b \"a\":\"1\",\"\\u0061\" : \"\\uD83D\\ude00\"\x7d" =
    some [("a", "1"), ("a", "😀")] := by decide

example : object? "\x7b\"a\":\"\\uD83D\"\x7d" = none := by decide

/-! ## Where an object ends -/

theorem membersRest?_append {tokens : List Token} {members : List (String × String)}
    (h : membersRest? tokens = some members) (token : Token) (more : List Token) :
    membersRest? (tokens ++ token :: more) = none := by
  fun_induction membersRest? tokens generalizing members with
  | case1 key value => rfl
  | case2 key value tokens ih =>
      obtain ⟨others, hothers, -⟩ := Option.map_eq_some_iff.1 h
      simp only [List.cons_append, membersRest?, ih hothers, Option.map_none]
  | case3 => cases h

theorem members?_append {tokens : List Token} {members : List (String × String)}
    (h : members? tokens = some members) (token : Token) (more : List Token) :
    members? (tokens ++ token :: more) = none := by
  unfold members? at h
  split at h
  · rfl
  · next rest hbraces =>
    rw [List.cons_append, members?]
    · exact membersRest?_append h token more
    · intro heq
      have hrest : rest = [] := by
        cases rest with
        | nil => rfl
        | cons _ rest => simp at heq
      subst hrest
      cases h
  · cases h

/-- Only white space can follow an object.  So a text that goes on after one writes none, and
neither does a text that is cut before the last brace of one. -/
theorem gap_of_written_append {members members' : List (String × String)} {text extra : List Char}
    (h : Written members text) (h' : Written members' (text ++ extra)) : Gap extra := by
  obtain ⟨tokens, hlexed, hread⟩ := members?_of_written h
  obtain ⟨all, hlexed', hread'⟩ := members?_of_written h'
  have htokens := tokens?_of_lexed hlexed'
  rw [tokens?_append hlexed] at htokens
  obtain ⟨more, hmore, rfl⟩ := Option.map_eq_some_iff.1 htokens
  cases more with
  | nil =>
      cases tokens?_eq_some_iff.1 hmore with
      | nil blank => exact blank
  | cons token more =>
      rw [members?_append hread] at hread'
      cases hread'

/-! ## Every object can be written -/

theorem exists_unitEscape {n : Nat} (h : n < 0x10000) : ∃ text, UnitEscape n text :=
  ⟨_, .digits h (.inl rfl) (.inl rfl) (.inl rfl) (.inl rfl)⟩

theorem exists_spelling (c : Char) : ∃ text, Spelling c text := by
  have hmax := (toNat_lt_or_le c).2
  by_cases hlarge : 0x10000 ≤ c.toNat
  · obtain ⟨high, hhigh⟩ :=
      exists_unitEscape (n := 0xD800 + (c.toNat - 0x10000) / 0x400) (by omega)
    obtain ⟨low, hlow⟩ := exists_unitEscape (n := 0xDC00 + (c.toNat - 0x10000) % 0x400) (by omega)
    exact ⟨high ++ low, .pair hlarge hhigh hlow⟩
  · obtain ⟨text, escape⟩ := exists_unitEscape (Nat.not_le.1 hlarge)
    exact ⟨text, .unit escape⟩

theorem exists_spelled (string : List Char) : ∃ text, Spelled string text := by
  induction string with
  | nil => exact ⟨[], .nil⟩
  | cons c string ih =>
      obtain ⟨first, hfirst⟩ := exists_spelling c
      obtain ⟨rest, hrest⟩ := ih
      exact ⟨first ++ rest, .cons hfirst hrest⟩

theorem exists_member (member : String × String) : ∃ text, Member member text := by
  obtain ⟨key, value⟩ := member
  obtain ⟨left, hleft⟩ := exists_spelled key.toList
  obtain ⟨right, hright⟩ := exists_spelled value.toList
  have hgap : Gap [] := List.forall_mem_nil _
  exact ⟨_, .intro hgap (.quotes hleft) hgap hgap (.quotes hright) hgap⟩

theorem exists_members (member : String × String) (members : List (String × String)) :
    ∃ text, Members (member :: members) text := by
  induction members generalizing member with
  | nil =>
      obtain ⟨only, honly⟩ := exists_member member
      exact ⟨only, .one honly⟩
  | cons next members ih =>
      obtain ⟨first, hfirst⟩ := exists_member member
      obtain ⟨rest, hrest⟩ := ih next
      exact ⟨first ++ ',' :: rest, .more hfirst hrest⟩

theorem exists_written (members : List (String × String)) :
    ∃ text : String, Written members text.toList := by
  have hgap : Gap [] := List.forall_mem_nil _
  have hcontent : ∃ content, Content members content := by
    cases members with
    | nil => exact ⟨[], .empty hgap⟩
    | cons member members =>
        obtain ⟨content, hcontent⟩ := exists_members member members
        exact ⟨content, .members hcontent⟩
  obtain ⟨content, hcontent⟩ := hcontent
  refine ⟨String.ofList ([] ++ '\x7b' :: (content ++ '\x7d' :: [])), ?_⟩
  rw [String.toList_ofList]
  exact .object hgap hcontent hgap

end MessageExchange.Json
