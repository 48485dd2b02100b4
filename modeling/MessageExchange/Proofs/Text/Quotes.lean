import MessageExchange.Text.Quotes
import Mathlib.Data.List.Basic

/-!
# The least escaping

A quote of a text is *guarded* if a backslash stands directly before it.  Escaping
guards every quote and changes nothing else, so a text whose quotes are guarded is
left as it is (`escapeQuotesAfter_eq_self_iff`).

A text in which all quotes are guarded, and which keeps the characters of another
text in order, needs a backslash of its own for every quote that is not guarded
there.  So none is shorter than the escaped text (`length_escapeQuotesAfter_le`).

Escaping goes on with the character that it has seen last.  Escaping two texts
apart forgets it once, at the seam (`escapeQuotesAfter_append`).
-/

namespace MessageExchange.Text

/-! ## Quotes -/

/-- A double quote of a text. -/
structure Quote (text : List Char) where
  /-- What stands before the quote. -/
  before : List Char
  /-- What stands after it. -/
  after : List Char
  text_eq : text = before ++ '"' :: after

/-- A backslash stands directly before the quote. -/
def Quote.Guarded {text : List Char} (q : Quote text) : Prop := q.before.getLast? = some '\\'

/-- All quotes of a text that stands after the character `previous` are guarded. -/
def GuardedAfter (previous : Option Char) (text : List Char) : Prop :=
  ∀ q : Quote text, q.before.getLast?.or previous = some '\\'

/-- The character before a place of a text that stands after the character `previous`. -/
def charBefore? (previous : Option Char) (text : List Char) : Nat → Option Char
  | 0 => previous
  | i + 1 => text[i]?

theorem guardedAfter_none_iff {text : List Char} :
    GuardedAfter none text ↔ ∀ q : Quote text, q.Guarded := by
  simp only [GuardedAfter, Option.or_none, Quote.Guarded]

@[simp] theorem guardedAfter_nil (previous : Option Char) : GuardedAfter previous [] := fun q =>
  absurd q.text_eq.symm (List.append_ne_nil_of_right_ne_nil _ (List.cons_ne_nil _ _))

/-- The last character of a text, with one more character before it. -/
theorem getLast?_cons_or (c : Char) (text : List Char) (previous : Option Char) :
    (c :: text).getLast?.or previous = text.getLast?.or (some c) := by
  rw [List.getLast?_cons, Option.some_or]
  cases text.getLast? <;> rfl

theorem guardedAfter_cons {previous : Option Char} {c : Char} {rest : List Char} :
    GuardedAfter previous (c :: rest) ↔
      (c = '"' → previous = some '\\') ∧ GuardedAfter (some c) rest := by
  constructor
  · intro h
    constructor
    · rintro rfl
      exact h ⟨[], rest, rfl⟩
    · intro q
      have hq := h ⟨c :: q.before, q.after, congrArg (c :: ·) q.text_eq⟩
      rwa [getLast?_cons_or] at hq
  · rintro ⟨hc, hrest⟩ ⟨before, after, htext⟩
    cases before with
    | nil => exact hc (List.cons.inj htext).1
    | cons d before =>
        obtain ⟨rfl, hsplit⟩ := List.cons.inj htext
        rw [getLast?_cons_or]
        exact hrest ⟨before, after, hsplit⟩

/-! ## What escaping writes -/

theorem escapeQuotesAfter_quote {previous : Option Char} (h : previous ≠ some '\\')
    (rest : List Char) :
    escapeQuotesAfter previous ('"' :: rest) =
      '\\' :: '"' :: escapeQuotesAfter (some '"') rest :=
  if_pos ⟨rfl, h⟩

theorem escapeQuotesAfter_cons {previous : Option Char} {c : Char}
    (h : c = '"' → previous = some '\\') (rest : List Char) :
    escapeQuotesAfter previous (c :: rest) = c :: escapeQuotesAfter (some c) rest :=
  if_neg fun hescaped => hescaped.2 (h hescaped.1)

/-- A character is a quote without a backslash before it, or escaping copies it. -/
theorem escaped_or_copied (previous : Option Char) (c : Char) :
    (c = '"' ∧ previous ≠ some '\\') ∨ (c = '"' → previous = some '\\') := by
  by_cases hc : c = '"' ∧ previous ≠ some '\\'
  · exact .inl hc
  · exact .inr fun hquote => Classical.not_not.1 fun hne => hc ⟨hquote, hne⟩

theorem guardedAfter_escapeQuotesAfter (previous : Option Char) (text : List Char) :
    GuardedAfter previous (escapeQuotesAfter previous text) := by
  induction text generalizing previous with
  | nil => exact guardedAfter_nil previous
  | cons c rest ih =>
      rcases escaped_or_copied previous c with ⟨rfl, hprevious⟩ | hcopied
      · rw [escapeQuotesAfter_quote hprevious, guardedAfter_cons, guardedAfter_cons]
        exact ⟨nofun, fun _ => rfl, ih (some '"')⟩
      · rw [escapeQuotesAfter_cons hcopied, guardedAfter_cons]
        exact ⟨hcopied, ih (some c)⟩

/-- Escaping leaves alone exactly the texts whose quotes are guarded. -/
theorem escapeQuotesAfter_eq_self_iff {previous : Option Char} {text : List Char} :
    escapeQuotesAfter previous text = text ↔ GuardedAfter previous text := by
  constructor
  · intro h
    rw [← h]
    exact guardedAfter_escapeQuotesAfter previous text
  · intro h
    induction text generalizing previous with
    | nil => rfl
    | cons c rest ih =>
        obtain ⟨hc, hrest⟩ := guardedAfter_cons.1 h
        rw [escapeQuotesAfter_cons hc, ih hrest]

/-- Every character is written, with a backslash before it if it is a quote that is not guarded. -/
theorem escapeQuotesAfter_eq_flatten (previous : Option Char) (text : List Char) :
    escapeQuotesAfter previous text =
      (text.mapIdx fun i c =>
        if c = '"' ∧ charBefore? previous text i ≠ some '\\' then ['\\', c] else [c]).flatten := by
  induction text generalizing previous with
  | nil => rfl
  | cons c rest ih =>
      have hrest : (fun i => charBefore? previous (c :: rest) (i + 1)) =
          charBefore? (some c) rest := by
        funext i
        cases i <;> rfl
      rw [List.mapIdx_cons, List.flatten_cons]
      simp only [congrFun hrest]
      rw [← ih (some c)]
      rcases escaped_or_copied previous c with ⟨rfl, hprevious⟩ | hcopied
      · rw [escapeQuotesAfter_quote hprevious, if_pos ⟨rfl, hprevious⟩]
        rfl
      · rw [escapeQuotesAfter_cons hcopied, if_neg fun h => h.2 (hcopied h.1)]
        rfl

/-! ## Nothing shorter -/

/-- A text that keeps the characters of another in order, with all quotes guarded, is as long as the
escaped text.  If it stands after a backslash and the other text does not, that backslash may have
been put in for the other text's first quote, so it counts as well. -/
theorem length_escapeQuotesAfter_le (previous : Option Char) {previous' : Option Char}
    {text longer : List Char} (h : text.Sublist longer)
    (hguarded : GuardedAfter previous' longer) :
    (escapeQuotesAfter previous text).length ≤
      longer.length + if previous' = some '\\' ∧ previous ≠ some '\\' then 1 else 0 := by
  induction h generalizing previous previous' with
  | slnil => exact Nat.zero_le _
  | @cons text longer c _ ih =>
      -- The character `c` is put in, and it is worth one more than the text after it.
      have hle := ih previous (guardedAfter_cons.1 hguarded).2
      rw [List.length_cons]
      split at hle <;> omega
  | @cons_cons text longer c _ ih =>
      obtain ⟨hc, hrest⟩ := guardedAfter_cons.1 hguarded
      have hle := ih (some c) hrest
      rw [if_neg fun hseam => hseam.2 hseam.1, Nat.add_zero] at hle
      rcases escaped_or_copied previous c with ⟨rfl, hprevious⟩ | hcopied
      · rw [escapeQuotesAfter_quote hprevious, if_pos ⟨hc rfl, hprevious⟩]
        simp only [List.length_cons]
        omega
      · rw [escapeQuotesAfter_cons hcopied]
        simp only [List.length_cons]
        omega

/-! ## The seam of two texts -/

theorem escapeQuotesAfter_append (previous : Option Char) (text other : List Char) :
    escapeQuotesAfter previous (text ++ other) =
      escapeQuotesAfter previous text ++ escapeQuotesAfter (text.getLast?.or previous) other := by
  induction text generalizing previous with
  | nil => rfl
  | cons c rest ih =>
      rw [List.cons_append, getLast?_cons_or]
      rcases escaped_or_copied previous c with ⟨rfl, hprevious⟩ | hcopied
      · rw [escapeQuotesAfter_quote hprevious, escapeQuotesAfter_quote hprevious, ih]
        rfl
      · rw [escapeQuotesAfter_cons hcopied, escapeQuotesAfter_cons hcopied, ih]
        rfl

/-- The character before a text matters only if it is a backslash and the text starts with a
quote. -/
theorem escapeQuotesAfter_eq_none_iff {previous : Option Char} {text : List Char} :
    escapeQuotesAfter previous text = escapeQuotesAfter none text ↔
      ¬(previous = some '\\' ∧ text.head? = some '"') := by
  have hnone : none ≠ some '\\' := nofun
  cases text with
  | nil => simp
  | cons c rest =>
      rw [List.head?_cons, Option.some_inj]
      rcases escaped_or_copied none c with ⟨rfl, -⟩ | hcopied
      · rw [escapeQuotesAfter_quote hnone]
        by_cases hprevious : previous = some '\\'
        · rw [escapeQuotesAfter_cons fun _ => hprevious]
          simp [hprevious]
        · rw [escapeQuotesAfter_quote hprevious]
          simp [hprevious]
      · have hc : c ≠ '"' := fun hquote => hnone (hcopied hquote)
        rw [escapeQuotesAfter_cons hcopied, escapeQuotesAfter_cons fun hquote => absurd hquote hc]
        simp [hc]

/-! ## Every text -/

/-- Escaping puts one backslash before each quote that is not guarded and changes nothing else.
Afterwards all quotes are guarded, no text that keeps the characters in order and guards all quotes
is shorter, and escaping once more does nothing.  A text is left as it is exactly if its quotes are
guarded.  Two texts may be escaped apart, except where the first ends in a backslash and the second
starts with a quote. -/
theorem escapeQuotes_least (text : String) :
    let output := escapeQuotes text
    (∀ q : Quote output.toList, q.Guarded) ∧
      output.toList = (text.toList.mapIdx fun i c =>
        if c = '"' ∧ charBefore? none text.toList i ≠ some '\\' then ['\\', c]
        else [c]).flatten ∧
      (∀ longer : String, text.toList.Sublist longer.toList →
        (∀ q : Quote longer.toList, q.Guarded) → output.length ≤ longer.length) ∧
      escapeQuotes output = output ∧
      (output = text ↔ ∀ q : Quote text.toList, q.Guarded) ∧
      ∀ other : String, escapeQuotes (text ++ other) = output ++ escapeQuotes other ↔
        ¬(text.toList.getLast? = some '\\' ∧ other.toList.head? = some '"') := by
  intro output
  have houtput : output.toList = escapeQuotesAfter none text.toList := toList_escapeQuotes text
  have hguarded : GuardedAfter none output.toList := by
    rw [houtput]
    exact guardedAfter_escapeQuotesAfter none text.toList
  refine ⟨guardedAfter_none_iff.1 hguarded, ?_, fun longer hsublist hlonger => ?_, ?_, ?_,
    fun other => ?_⟩
  · rw [houtput, escapeQuotesAfter_eq_flatten]
  · have hle := length_escapeQuotesAfter_le none hsublist (guardedAfter_none_iff.2 hlonger)
    rw [← houtput, if_neg fun hseam => nomatch hseam.1, Nat.add_zero] at hle
    rwa [String.length_toList, String.length_toList] at hle
  · rw [← String.toList_inj, toList_escapeQuotes, escapeQuotesAfter_eq_self_iff]
    exact hguarded
  · rw [← String.toList_inj, houtput, escapeQuotesAfter_eq_self_iff, guardedAfter_none_iff]
  · rw [← String.toList_inj, String.toList_append, houtput, toList_escapeQuotes,
      toList_escapeQuotes, String.toList_append, escapeQuotesAfter_append, Option.or_none,
      List.append_cancel_left_eq, escapeQuotesAfter_eq_none_iff]

/-- A quote at the start, one that is guarded, and one after a quote, against a text that guards
them with one character to spare. -/
theorem escapeQuotes_least_of_longer :
    let text := "\"\\\"\""
    let longer := "\\\"-\\\"\\\""
    (text.toList.Sublist longer.toList ∧ ∀ q : Quote longer.toList, q.Guarded) ∧
      escapeQuotes text = "\\\"\\\"\\\"" ∧ (escapeQuotes text).length ≤ longer.length := by
  intro text longer
  have hsublist : text.toList.Sublist longer.toList := by decide
  have hguarded : ∀ q : Quote longer.toList, q.Guarded :=
    guardedAfter_none_iff.1 (escapeQuotesAfter_eq_self_iff.1 (by decide))
  obtain ⟨-, -, hleast, -⟩ := escapeQuotes_least text
  exact ⟨⟨hsublist, hguarded⟩, by decide, hleast longer hsublist hguarded⟩

end MessageExchange.Text
