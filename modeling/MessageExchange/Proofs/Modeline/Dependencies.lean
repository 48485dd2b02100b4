import MessageExchange.Modeline.Dependency
import MessageExchange.Proofs.Modeline.Dispatch
import MessageExchange.Proofs.Text.Lines
import MessageExchange.Proofs.Text.LowerCase

/-!
# The dependencies of a source

`dependencies source` lists the values that a source declares dependencies with,
line by line and word by word.  `SourceDeclared` says the same through the form of
the source (`sourceDeclared_iff`): it has lines, and every line is a modeline with
the words that it is spaced from, or it declares nothing.

The customizers that the standard parser makes of a source are the notifications
of these values, in order (`parseSource_standard`).  Making them tells nobody.
-/

namespace MessageExchange

open Text (Spaced)
open Modeline (Written)

variable {ε : Type}

/-! ## Declared values -/

/-- The value of a word that declares a dependency.  Before the first equals sign stands the word
`dependency`, with letters of ASCII in any case. -/
def dependency? (word : List Char) : Option String :=
  if '=' ∈ word ∧ (word.takeWhile (· ≠ '=')).map Char.toLower = "dependency".toList then
    some (String.ofList (word.dropWhile (· ≠ '=')).tail)
  else none

/-- The dependencies of a line. -/
def lineDependencies (line : List Char) : List String :=
  match Modeline.declarations? line with
  | none => []
  | some rest => (Text.words rest).filterMap dependency?

/-- The dependencies of a source. -/
def dependencies (source : String) : List String :=
  (Text.lines source.toList).flatMap lineDependencies

/-- What a line declares, said by its form. -/
inductive LineDeclared (line : List Char) : List String → Prop where
  /-- A line that is no modeline declares nothing. -/
  | other : (¬∃ rest, Written line rest) → LineDeclared line []
  /-- A modeline declares what its words do. -/
  | modeline {rest : List Char} {ws : List (List Char)} :
      Written line rest → Spaced ws rest → LineDeclared line (ws.filterMap dependency?)

/-- What the lines of a source declare, one after the other. -/
inductive Declared : List (List Char) → List String → Prop where
  | nil : Declared [] []
  /-- One more line before the others. -/
  | line {line : List Char} {lines : List (List Char)} {values rest : List String} :
      LineDeclared line values → Declared lines rest → Declared (line :: lines) (values ++ rest)

/-- What the lines of a source declare. -/
def SourceDeclared (source : String) (values : List String) : Prop :=
  ∃ lines, Text.Lines source.toList lines ∧ Declared lines values

theorem lineDeclared_iff {line : List Char} {values : List String} :
    LineDeclared line values ↔ values = lineDependencies line := by
  constructor
  · intro h
    cases h with
    | other hline =>
        have hnone : Modeline.declarations? line = none :=
          Option.eq_none_iff_forall_ne_some.2 fun rest hrest =>
            hline ⟨rest, Modeline.written_of_declarations? hrest⟩
        rw [lineDependencies, hnone]
    | modeline hline hrest =>
        rw [lineDependencies, Modeline.declarations?_of_written hline,
          ← Text.words_of_spaced hrest]
  · rintro rfl
    rw [lineDependencies]
    cases h : Modeline.declarations? line with
    | none =>
        refine .other fun ⟨rest, hrest⟩ => ?_
        rw [Modeline.declarations?_of_written hrest] at h
        cases h
    | some rest => exact .modeline (Modeline.written_of_declarations? h) (Text.spaced_iff.2 rfl)

/-- The dependencies of lines are what they declare. -/
theorem declared_iff {lines : List (List Char)} {values : List String} :
    Declared lines values ↔ values = lines.flatMap lineDependencies := by
  constructor
  · intro h
    induction h with
    | nil => rfl
    | line hline _ ih => rw [List.flatMap_cons, lineDeclared_iff.1 hline, ih]
  · rintro rfl
    induction lines with
    | nil => exact .nil
    | cons line lines ih =>
        rw [List.flatMap_cons]
        exact .line (lineDeclared_iff.2 rfl) ih

/-- The dependencies of a source are what its lines declare. -/
theorem sourceDeclared_iff {source : String} {values : List String} :
    SourceDeclared source values ↔ values = dependencies source := by
  simp only [SourceDeclared, Text.lines_iff, exists_eq_left', declared_iff]
  exact Iff.rfl

example : dependencies "// relay:dependency=a=b x\n#\trelay: Dependency= other=c" = ["a=b", ""] := by
  decide

/-! ## Customizers -/

/-- No letter beyond ASCII is the same as one of `dependency` but for case. -/
theorem toLower_eq_dependency_iff {key : List Char} :
    Text.toLower (String.ofList key) = "dependency" ↔
      key.map Char.toLower = "dependency".toList := by
  have hplain : ∀ c ∈ "dependency".toList, Text.isPlain c = true :=
    List.all_eq_true.1 (by decide)
  rw [Text.toLower_eq_iff_of_plain hplain, String.toList_ofList]

/-- The change that tells the strategies about a dependency. -/
def notifier (dependency : String) : Customizer ε := ⟨notifyStrategies dependency⟩

theorem latest?_dependencyTrait (name : String) :
    latest? [dependencyTrait (ε := ε)] name =
      if Text.toLower name = "dependency" then some dependencyTrait else none := by
  have hname : Text.toLower (dependencyTrait (ε := ε)).name = "dependency" := by
    show Text.toLower "dependency" = "dependency"
    decide
  by_cases h : Text.toLower name = "dependency"
  · simp [latest?, hname, h]
  · simp [latest?, hname, h, Ne.symm h]

theorem made?_dependencyTrait (resource : Resource) (word : List Char) :
    made? [dependencyTrait (ε := ε)] resource word = (dependency? word).map notifier := by
  rw [made?, dependency?, latest?_dependencyTrait]
  by_cases hword : '=' ∈ word
  · by_cases hkey : (word.takeWhile (· ≠ '=')).map Char.toLower = "dependency".toList
    · rw [if_pos hword, if_pos (toLower_eq_dependency_iff.2 hkey), if_pos ⟨hword, hkey⟩]
      rfl
    · rw [if_pos hword, if_neg (mt toLower_eq_dependency_iff.1 hkey), if_neg fun h => hkey h.2]
      rfl
  · rw [if_neg hword, if_neg fun h => hword h.1]
    rfl

theorem parseChars_standard (resource : Resource) (line : List Char) :
    (ModelineParser.standard (ε := ε)).parseChars resource line =
      (lineDependencies line).map notifier := by
  have hparser : ModelineParser.standard (ε := ε) = .ofTraits [dependencyTrait] := rfl
  have hdeclared : LineDeclared line (lineDependencies line) := lineDeclared_iff.2 rfl
  rw [hparser]
  generalize lineDependencies line = values at hdeclared ⊢
  cases hdeclared with
  | other hline => exact ModelineParser.parseChars_of_not_written _ resource hline
  | modeline hline hrest =>
      rw [ModelineParser.parseChars_of_written _ resource hline hrest, List.map_filterMap]
      exact congrArg (List.filterMap · _) (funext (made?_dependencyTrait resource))

/-- The customizers of a source tell the strategies about its dependencies. -/
theorem parseSource_standard (resource : Resource) (source : String) :
    (ModelineParser.standard (ε := ε)).parseSource resource source =
      (dependencies source).map notifier := by
  have hlines : (ModelineParser.standard (ε := ε)).parseChars resource =
      fun line => (lineDependencies line).map notifier :=
    funext (parseChars_standard resource)
  rw [ModelineParser.parseSource, dependencies, List.map_flatMap, hlines]

end MessageExchange
