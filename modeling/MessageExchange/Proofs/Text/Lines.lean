import MessageExchange.Text.Lines
import Mathlib.Data.List.Basic

/-!
# Reading a text line by line

`Lines text lines` says what the lines of a text are by the way they end.  A line ends
at a line feed, with or without a carriage return before it, and the last line may
end with the text.  `lines` finds these lines and no others (`lines_iff`).

A reader takes a line and gives a list, and a text gives what its lines give, one
after the other.  A reader is *blind to returns* if a carriage return at the end of
a line changes nothing and an empty line gives nothing (`Blind`).

Such a reader does not see how lines end.  What it gives of a text is what it gives
of the pieces between the line feeds (`Blind.flatMap_lines`), although a piece may
hold a carriage return that its line does not, and the last piece may be no line.
So texts that a line feed joins are read one after the other
(`Blind.flatMap_lines_append`), and a carriage return before every line feed is not
seen (`Blind.flatMap_lines_withReturns`).
-/

namespace MessageExchange.Text

variable {α : Type}

/-! ## What the lines of a text are -/

/-- The lines of a text, without the characters that end them. -/
inductive Lines : List Char → List (List Char) → Prop where
  | nil : Lines [] []
  /-- The last line, if it ends with the text. -/
  | last {line : List Char} : line ≠ [] → '\n' ∉ line → Lines line [line]
  /-- A line that ends at a line feed. -/
  | feed {line rest : List Char} {others : List (List Char)} :
      '\n' ∉ line → line.getLast? ≠ some '\r' → Lines rest others →
      Lines (line ++ '\n' :: rest) (line :: others)
  /-- A line that ends at a carriage return and a line feed. -/
  | returnFeed {line rest : List Char} {others : List (List Char)} :
      '\n' ∉ line → Lines rest others → Lines (line ++ '\r' :: '\n' :: rest) (line :: others)

/-- A text without a line feed is one piece. -/
theorem pieces_of_notMem {text : List Char} (h : '\n' ∉ text) :
    (text.splitOnP fun c => c = '\n') = [text] := by
  apply List.splitOnP_eq_singleton
  intro c hc
  exact decide_eq_false fun heq => h (heq ▸ hc)

theorem pieces_append (front back : List Char) :
    ((front ++ '\n' :: back).splitOnP fun c => c = '\n') =
      (front.splitOnP fun c => c = '\n') ++ back.splitOnP fun c => c = '\n' :=
  List.splitOnP_append_cons front back rfl

theorem lines_of_notMem {text : List Char} (hne : text ≠ []) (h : '\n' ∉ text) :
    lines text = [text] := by
  rw [lines, pieces_of_notMem h, linesOfPieces, if_neg (by simpa using hne)]

theorem lines_append_feed {front : List Char} (h : '\n' ∉ front) (back : List Char) :
    lines (front ++ '\n' :: back) = dropReturn front :: lines back := by
  rw [lines, pieces_append, pieces_of_notMem h, List.singleton_append, lines]
  obtain ⟨piece, rest, hpieces⟩ :=
    List.exists_cons_of_ne_nil (List.splitOnP_ne_nil (fun c => decide (c = '\n')) back)
  rw [hpieces, linesOfPieces]

theorem dropReturn_of_getLast? {line : List Char} (h : line.getLast? ≠ some '\r') :
    dropReturn line = line :=
  if_neg h

@[simp] theorem dropReturn_concat (line : List Char) : dropReturn (line ++ ['\r']) = line := by
  rw [dropReturn, if_pos (by simp), List.dropLast_concat]

theorem notMem_concat_return {line : List Char} (h : '\n' ∉ line) : '\n' ∉ line ++ ['\r'] := by
  rw [List.mem_append, not_or]
  exact ⟨h, by decide⟩

theorem Lines.lines_eq {text : List Char} {all : List (List Char)} (h : Lines text all) :
    lines text = all := by
  induction h with
  | nil => rfl
  | last hne hline => exact lines_of_notMem hne hline
  | feed hline hlast _ ih => rw [lines_append_feed hline, dropReturn_of_getLast? hlast, ih]
  | @returnFeed line rest others hline _ ih =>
      have hreturn := lines_append_feed (notMem_concat_return hline) rest
      rw [List.append_assoc, List.singleton_append] at hreturn
      rw [hreturn, dropReturn_concat, ih]

/-- Every text has lines.  What follows the first line feed is shorter. -/
theorem lines_lines (text : List Char) : Lines text (lines text) := by
  by_cases hmem : '\n' ∈ text
  · obtain ⟨front, back, htext, hfront⟩ := List.eq_append_cons_of_mem hmem
    have hlength : back.length < text.length := by
      rw [htext, List.length_append, List.length_cons]
      omega
    have hback := lines_lines back
    rw [htext, lines_append_feed hfront]
    by_cases hlast : front.getLast? = some '\r'
    · obtain ⟨line, rfl⟩ := List.getLast?_eq_some_iff.1 hlast
      rw [dropReturn_concat, List.append_assoc]
      exact .returnFeed (fun hline => hfront (List.mem_append_left _ hline)) hback
    · rw [dropReturn_of_getLast? hlast]
      exact .feed hfront hlast hback
  · by_cases hne : text = []
    · rw [hne]
      exact .nil
    · rw [lines_of_notMem hne hmem]
      exact .last hne hmem
termination_by text.length

theorem lines_iff {text : List Char} {all : List (List Char)} :
    Lines text all ↔ lines text = all :=
  ⟨Lines.lines_eq, fun h => h ▸ lines_lines text⟩

/-! ## Readers -/

/-- A reader of lines that sees neither an empty line nor a carriage return at the end of a line. -/
structure Blind (read : List Char → List α) : Prop where
  nil : read [] = []
  concat_return : ∀ line, read (line ++ ['\r']) = read line

/-- A text with a carriage return before every line feed. -/
def withReturns (text : List Char) : List Char :=
  text.flatMap fun c => if c = '\n' then ['\r', '\n'] else [c]

theorem withReturns_append (front back : List Char) :
    withReturns (front ++ back) = withReturns front ++ withReturns back :=
  List.flatMap_append

theorem withReturns_of_notMem {text : List Char} (h : '\n' ∉ text) : withReturns text = text := by
  have hsame : ∀ c ∈ text, (if c = '\n' then ['\r', '\n'] else [c]) = [c] := by
    intro c hc
    have hne : c ≠ '\n' := fun heq => h (heq ▸ hc)
    exact if_neg hne
  rw [withReturns, List.flatMap_congr hsame, List.flatMap_singleton']

namespace Blind

variable {read : List Char → List α}

theorem dropReturn (h : Blind read) (line : List Char) :
    read (Text.dropReturn line) = read line := by
  rw [Text.dropReturn]
  split
  · next hlast =>
    obtain ⟨front, rfl⟩ := List.getLast?_eq_some_iff.1 hlast
    rw [List.dropLast_concat, h.concat_return]
  · rfl

theorem flatMap_linesOfPieces (h : Blind read) (pieces : List (List Char)) :
    (linesOfPieces pieces).flatMap read = pieces.flatMap read := by
  induction pieces using linesOfPieces.induct with
  | case1 => rfl
  | case2 last hempty =>
      rw [linesOfPieces, if_pos hempty, List.isEmpty_iff.1 hempty, List.flatMap_singleton, h.nil,
        List.flatMap_nil]
  | case3 last hempty => rw [linesOfPieces, if_neg hempty]
  | case4 piece next rest ih =>
      rw [linesOfPieces, List.flatMap_cons, List.flatMap_cons, h.dropReturn, ih]

/-- What the lines of a text give is what the pieces between its line feeds give. -/
theorem flatMap_lines (h : Blind read) (text : List Char) :
    (lines text).flatMap read = (text.splitOnP fun c => c = '\n').flatMap read :=
  h.flatMap_linesOfPieces _

theorem flatMap_lines_of_notMem (h : Blind read) {line : List Char} (hline : '\n' ∉ line) :
    (lines line).flatMap read = read line := by
  rw [h.flatMap_lines, pieces_of_notMem hline, List.flatMap_singleton]

/-- Texts that a line feed joins are read one after the other. -/
theorem flatMap_lines_append (h : Blind read) (front back : List Char) :
    (lines (front ++ '\n' :: back)).flatMap read =
      (lines front).flatMap read ++ (lines back).flatMap read := by
  rw [h.flatMap_lines, h.flatMap_lines, h.flatMap_lines, pieces_append, List.flatMap_append]

/-- A carriage return before every line feed is not seen.  What follows the first line feed is
shorter. -/
theorem flatMap_lines_withReturns (h : Blind read) (text : List Char) :
    (lines (withReturns text)).flatMap read = (lines text).flatMap read := by
  by_cases hmem : '\n' ∈ text
  · obtain ⟨front, back, htext, hfront⟩ := List.eq_append_cons_of_mem hmem
    have hlength : back.length < text.length := by
      rw [htext, List.length_append, List.length_cons]
      omega
    have hreturns : withReturns text = (front ++ ['\r']) ++ '\n' :: withReturns back := by
      rw [htext, withReturns_append, withReturns_of_notMem hfront, List.append_assoc]
      rfl
    rw [hreturns, h.flatMap_lines_append,
      h.flatMap_lines_of_notMem (notMem_concat_return hfront), h.concat_return,
      h.flatMap_lines_withReturns back, htext, h.flatMap_lines_append,
      h.flatMap_lines_of_notMem hfront]
  · rw [withReturns_of_notMem hmem]
termination_by text.length

end Blind

end MessageExchange.Text
