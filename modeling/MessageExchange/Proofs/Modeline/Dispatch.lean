import MessageExchange.Proofs.Modeline.Grammar
import Mathlib.Data.List.Basic
import Mathlib.Data.List.Induction

/-!
# Dispatch to traits

A parser holds the traits that were added to it, and of several with one lower
case of their names the latest (`find?_ofTraits`).  So what a word of a modeline
makes is said by the list of added traits alone: the word is cut at its first
equals sign, the latest trait that goes by the key makes a customizer of the
value, and every other word makes nothing.  A line makes what its words make, in
order (`parseChars_of_written`).
-/

namespace MessageExchange

open Text (Spaced)
open Modeline (Written Cut)

variable {ε : Type}

/-! ## Parsers from traits -/

/-- The latest trait that goes by a name. -/
def latest? (added : List (ModelineTrait ε)) (name : String) : Option (ModelineTrait ε) :=
  (added.filter fun modelineTrait => Text.toLower modelineTrait.name = Text.toLower name).getLast?

/-- What a word makes. -/
def made? (added : List (ModelineTrait ε)) (resource : Resource) (word : List Char) :
    Option (Customizer ε) :=
  if '=' ∈ word then
    (latest? added (String.ofList (word.takeWhile (· ≠ '=')))).map fun modelineTrait =>
      modelineTrait.customizer resource (String.ofList (word.dropWhile (· ≠ '=')).tail)
  else none

namespace ModelineParser

/-- The parser that traits were added to in order. -/
def ofTraits (added : List (ModelineTrait ε)) : ModelineParser ε := added.foldl addTrait .empty

/-- A parser finds the latest trait that goes by a name. -/
theorem find?_ofTraits (added : List (ModelineTrait ε)) (name : String) :
    (ofTraits added).find? name = latest? added name := by
  induction added using List.reverseRecOn with
  | nil => rfl
  | append_singleton added modelineTrait ih =>
      rw [ofTraits, List.foldl_concat, ← ofTraits, find?, addTrait, KeyMap.find?_insert, ← find?,
        ih, latest?, latest?, List.filter_append]
      by_cases h : Text.toLower modelineTrait.name = Text.toLower name
      · simp [h]
      · simp [h]

/-! ## Words and lines -/

theorem made?_of_cut (added : List (ModelineTrait ε)) (resource : Resource)
    {word key value : List Char} (h : Cut word key value) :
    made? added resource word =
      (latest? added (String.ofList key)).map fun modelineTrait =>
        modelineTrait.customizer resource (String.ofList value) := by
  have hmem : '=' ∈ word := by
    rw [h.1]
    exact List.mem_append_right _ List.mem_cons_self
  -- There is one cut of a word, so this one is the cut at the first equals sign.
  have hcut := Modeline.keyValue?_of_cut (Modeline.cut_takeWhile hmem)
  rw [Modeline.keyValue?_of_cut h, Option.some.injEq, Prod.mk.injEq] at hcut
  rw [made?, if_pos hmem, ← hcut.1, ← hcut.2]

theorem parseChars_of_written (added : List (ModelineTrait ε)) (resource : Resource)
    {line rest : List Char} {ws : List (List Char)} (hline : Written line rest)
    (hrest : Spaced ws rest) :
    (ofTraits added).parseChars resource line = ws.filterMap (made? added resource) := by
  have hdeclared : Modeline.declared line = ws.filterMap fun word =>
      (Modeline.keyValue? word).map fun part =>
        (String.ofList part.1, String.ofList part.2) := by
    rw [Modeline.declared, Modeline.declarations?_of_written hline, ← Text.words_of_spaced hrest]
  rw [parseChars, hdeclared, List.filterMap_filterMap]
  apply List.filterMap_congr
  intro word _
  by_cases h : '=' ∈ word
  · have hcut := Modeline.cut_takeWhile h
    rw [Modeline.keyValue?_of_cut hcut, made?_of_cut added resource hcut, Option.map_some,
      Option.bind_some, find?_ofTraits]
  · rw [Modeline.keyValue?_eq_none_iff.2 h, made?, if_neg h]
    rfl

theorem parseChars_of_not_written (parser : ModelineParser ε) (resource : Resource)
    {line : List Char} (hline : ¬∃ rest, Written line rest) :
    parser.parseChars resource line = [] := by
  have hnone : Modeline.declarations? line = none := by
    rw [Option.eq_none_iff_forall_ne_some]
    intro rest h
    exact hline ⟨rest, Modeline.written_of_declarations? h⟩
  rw [parseChars, Modeline.declared, hnone]
  rfl

end ModelineParser

theorem isModeline_iff {line : String} :
    isModeline line = true ↔ ∃ rest, Written line.toList rest := by
  rw [isModeline, Option.isSome_iff_exists]
  exact exists_congr fun rest => Modeline.declarations?_eq_some_iff

/-! ## Every line -/

/-- A line is a modeline if it has the form of one, and it makes what its words make.  A line that
is no modeline makes nothing.  However a modeline is written, its declarations come back: for each
with a key that a trait goes by, in order, what the latest such trait makes of the value. -/
theorem dispatch_of_line (added : List (ModelineTrait ε)) (resource : Resource) (line : String) :
    let parser := ModelineParser.ofTraits added
    (isModeline line = true ↔ ∃ rest, Written line.toList rest) ∧
      (isModeline line = false → parser.parseLine resource line = []) ∧
      (∀ rest, Written line.toList rest →
        ∃ ws, (∀ ws', Spaced ws' rest ↔ ws' = ws) ∧
          parser.parseLine resource line = ws.filterMap (made? added resource)) ∧
      ∀ writing : Modeline.Writing,
        parser.parseLine resource (String.ofList writing.text) =
          writing.parts.filterMap fun part =>
            (latest? added part.key).map fun modelineTrait =>
              modelineTrait.customizer resource part.value := by
  intro parser
  refine ⟨isModeline_iff, fun hline => ?_, fun rest hline => ?_, fun writing => ?_⟩
  · apply parser.parseChars_of_not_written resource
    rw [← isModeline_iff, hline]
    exact Bool.false_ne_true
  · refine ⟨Text.words rest, fun ws => ?_, ?_⟩
    · rw [Text.spaced_iff]
      exact eq_comm
    · exact ModelineParser.parseChars_of_written added resource hline (Text.spaced_iff.2 rfl)
  · rw [ModelineParser.parseLine, String.toList_ofList,
      ModelineParser.parseChars_of_written added resource writing.written writing.spaced,
      List.filterMap_map]
    apply List.filterMap_congr
    intro part _
    rw [Function.comp_apply, ModelineParser.made?_of_cut added resource part.word_cut,
      String.ofList_toList, String.ofList_toList]

end MessageExchange
