import MessageExchange.Proofs.Modeline.Dispatch
import MessageExchange.Proofs.Text.Lines

/-!
# The declarations of a source

A `Declaration` is a trait that a parser knows, where the source was read from, and
the value that the source declares.  A parser finds declarations in the lines of a
source, one line after the other, and the customizers of the source are those of
its declarations (`parseSource_eq`).

A line gives the same declarations with a carriage return at its end, since that is
white space after the last word, and an empty line gives none
(`blind_lineDeclarations`).  So the way in which lines end is not seen, and sources
that a line feed joins give what each of them gives, one after the other
(`customizers_of_source`).
-/

namespace MessageExchange

open Text (Blind Solid)

variable {ε : Type}

/-! ## Declarations -/

/-- A value that a source declares for a trait. -/
structure Declaration (ε : Type) where
  modelineTrait : ModelineTrait ε
  /-- Where the source was read from. -/
  resource : Resource
  value : String

/-- What the trait makes of the value. -/
def Declaration.customizer (declaration : Declaration ε) : Customizer ε :=
  declaration.modelineTrait.customizer declaration.resource declaration.value

namespace ModelineParser

/-- The declarations of a line, for the traits that the parser knows. -/
def lineDeclarations (parser : ModelineParser ε) (resource : Resource) (line : List Char) :
    List (Declaration ε) :=
  (Modeline.declared line).filterMap fun part =>
    (parser.find? part.1).map fun modelineTrait => ⟨modelineTrait, resource, part.2⟩

/-- The declarations of a source, line by line. -/
def declarations (parser : ModelineParser ε) (resource : Resource) (source : String) :
    List (Declaration ε) :=
  (Text.lines source.toList).flatMap (parser.lineDeclarations resource)

theorem parseChars_eq (parser : ModelineParser ε) (resource : Resource) (line : List Char) :
    parser.parseChars resource line =
      (parser.lineDeclarations resource line).map Declaration.customizer := by
  rw [parseChars, lineDeclarations, List.map_filterMap]
  congr 1
  funext part
  rw [Option.map_map]
  rfl

/-- The customizers of a source are those of its declarations. -/
theorem parseSource_eq (parser : ModelineParser ε) (resource : Resource) (source : String) :
    parser.parseSource resource source =
      (parser.declarations resource source).map Declaration.customizer := by
  rw [parseSource, declarations, List.map_flatMap]
  exact congrArg (List.flatMap · _) (funext (parser.parseChars_eq resource))

end ModelineParser

/-! ## Lines -/

namespace Modeline

/-- A carriage return at the end of a line stands after the marker, so it ends the declarations. -/
theorem declarations?_concat_return (line : List Char) :
    declarations? (line ++ ['\r']) = (declarations? line).map (· ++ ['\r']) := by
  apply Option.ext
  intro rest
  rw [declarations?_eq_some_iff, Option.map_eq_some_iff]
  constructor
  · rintro ⟨lead, comment, mid, hlead, hcomment, hmid, hline⟩
    rcases List.eq_nil_or_concat' rest with rfl | ⟨front, c, rfl⟩
    · have hlast := congrArg List.getLast? hline
      simp at hlast
    · rw [← List.append_assoc] at hline
      obtain ⟨hfront, hlast⟩ := List.append_inj' hline rfl
      refine ⟨front, declarations?_eq_some_iff.2 ⟨lead, comment, mid, hlead, hcomment, hmid, hfront⟩, ?_⟩
      rw [hlast]
  · rintro ⟨front, hfront, rfl⟩
    obtain ⟨lead, comment, mid, hlead, hcomment, hmid, rfl⟩ := declarations?_eq_some_iff.1 hfront
    exact ⟨lead, comment, mid, hlead, hcomment, hmid, List.append_assoc _ _ _⟩

theorem declared_concat_return (line : List Char) : declared (line ++ ['\r']) = declared line := by
  have hwords (rest : List Char) : Text.words (rest ++ ['\r']) = Text.words rest := by
    rw [Text.words_append_cons rfl, Text.words_nil, List.append_nil]
  rw [declared, declared, declarations?_concat_return]
  cases declarations? line with
  | none => rfl
  | some rest =>
      dsimp only [Option.map_some]
      rw [hwords]

/-- A declared value is part of a word, so it holds no white space. -/
theorem solid_of_mem_declared {line : List Char} {key value : String}
    (h : (key, value) ∈ declared line) : Solid value.toList := by
  rw [declared] at h
  split at h
  case h_1 => cases h
  case h_2 rest _ =>
    obtain ⟨word, hword, hpart⟩ := List.mem_filterMap.1 h
    obtain ⟨part, hcut, heq⟩ := Option.map_eq_some_iff.1 hpart
    obtain ⟨rfl, rfl⟩ := Prod.mk.inj heq
    have hsolid : Solid word := (Text.spaced_iff.2 rfl).solid word hword
    rw [String.toList_ofList]
    intro c hc
    refine hsolid c ?_
    rw [(cut_of_keyValue? hcut).1]
    exact List.mem_append_right _ (List.mem_cons_of_mem _ hc)

end Modeline

namespace ModelineParser

/-- How a line ends is not seen. -/
theorem blind_lineDeclarations (parser : ModelineParser ε) (resource : Resource) :
    Blind (parser.lineDeclarations resource) where
  nil := rfl
  concat_return line := by rw [lineDeclarations, lineDeclarations, Modeline.declared_concat_return]

theorem lineDeclarations_of_not_isModeline (parser : ModelineParser ε) (resource : Resource)
    {line : String} (h : isModeline line = false) :
    parser.lineDeclarations resource line.toList = [] := by
  rw [isModeline, Option.isSome_eq_false_iff, Option.isNone_iff_eq_none] at h
  rw [lineDeclarations, Modeline.declared, h]
  rfl

/-! ## Sources -/

theorem declarations_of_notMem (parser : ModelineParser ε) (resource : Resource) {line : String}
    (h : '\n' ∉ line.toList) :
    parser.declarations resource line = parser.lineDeclarations resource line.toList :=
  (parser.blind_lineDeclarations resource).flatMap_lines_of_notMem h

theorem declarations_append (parser : ModelineParser ε) (resource : Resource)
    (front back : String) :
    parser.declarations resource (front ++ "\n" ++ back) =
      parser.declarations resource front ++ parser.declarations resource back := by
  have htext : (front ++ "\n" ++ back).toList = front.toList ++ '\n' :: back.toList := by
    rw [String.toList_append, String.toList_append, List.append_assoc]
    rfl
  rw [declarations, htext]
  exact (parser.blind_lineDeclarations resource).flatMap_lines_append _ _

theorem declarations_empty (parser : ModelineParser ε) (resource : Resource) :
    parser.declarations resource "" = [] := rfl

theorem declarations_intercalate (parser : ModelineParser ε) (resource : Resource)
    (sources : List String) :
    parser.declarations resource ("\n".intercalate sources) =
      sources.flatMap (parser.declarations resource) := by
  induction sources with
  | nil => rfl
  | cons source rest ih =>
      cases rest with
      | nil => rw [String.intercalate_singleton, List.flatMap_singleton]
      | cons next rest =>
          rw [String.intercalate_cons_cons, declarations_append, ih, ← List.flatMap_cons]

/-- A line that is no modeline can stand anywhere. -/
theorem declarations_insert (parser : ModelineParser ε) (resource : Resource)
    (before after : List String) {line : String} (hline : '\n' ∉ line.toList)
    (hother : isModeline line = false) :
    parser.declarations resource ("\n".intercalate (before ++ line :: after)) =
      parser.declarations resource ("\n".intercalate (before ++ after)) := by
  have hnone : parser.declarations resource line = [] := by
    rw [parser.declarations_of_notMem resource hline,
      parser.lineDeclarations_of_not_isModeline resource hother]
  rw [declarations_intercalate, declarations_intercalate, List.flatMap_append,
    List.flatMap_append, List.flatMap_cons, hnone, List.nil_append]

theorem declarations_withReturns (parser : ModelineParser ε) (resource : Resource)
    (source : String) :
    parser.declarations resource (String.ofList (Text.withReturns source.toList)) =
      parser.declarations resource source := by
  rw [declarations, String.toList_ofList,
    (parser.blind_lineDeclarations resource).flatMap_lines_withReturns]
  rfl

theorem solid_of_mem_declarations {parser : ModelineParser ε} {resource : Resource}
    {source : String} {declaration : Declaration ε}
    (h : declaration ∈ parser.declarations resource source) : Solid declaration.value.toList := by
  obtain ⟨line, -, hline⟩ := List.mem_flatMap.1 h
  obtain ⟨part, hpart, hfound⟩ := List.mem_filterMap.1 hline
  obtain ⟨modelineTrait, -, rfl⟩ := Option.map_eq_some_iff.1 hfound
  exact Modeline.solid_of_mem_declared hpart

end ModelineParser

/-- A source gives the customizers of the declarations that its lines hold, in order.  Sources that a
line feed joins give what each of them gives, one after the other, and a source without a line feed
is one line.  A carriage return before every line feed and a line feed at the end change nothing, and
neither do lines that are no modelines, wherever they stand.  A declared value holds no white space,
so no carriage return. -/
theorem customizers_of_source (parser : ModelineParser ε) (resource : Resource) :
    let found := parser.declarations resource
    let made := parser.parseSource resource
    let same (first second : String) := found first = found second ∧ made first = made second
    (∀ source, made source = (found source).map Declaration.customizer) ∧
      (∀ front back, found (front ++ "\n" ++ back) = found front ++ found back ∧
        made (front ++ "\n" ++ back) = made front ++ made back) ∧
      (∀ line, '\n' ∉ line.toList → found line = parser.lineDeclarations resource line.toList ∧
        made line = parser.parseLine resource line) ∧
      (∀ source, same (String.ofList (Text.withReturns source.toList)) source ∧
        same (source ++ "\n") source) ∧
      (∀ source, ∀ declaration ∈ found source,
        Solid declaration.value.toList ∧ '\r' ∉ declaration.value.toList) ∧
      ∀ (before after : List String) (line : String), '\n' ∉ line.toList →
        isModeline line = false →
          same ("\n".intercalate (before ++ line :: after)) ("\n".intercalate (before ++ after)) := by
  intro found made same
  have hmade (source : String) : made source = (found source).map Declaration.customizer :=
    parser.parseSource_eq resource source
  have hsame {first second : String} (h : found first = found second) : same first second :=
    ⟨h, by rw [hmade, hmade, h]⟩
  have happend (front back : String) : found (front ++ "\n" ++ back) = found front ++ found back :=
    parser.declarations_append resource front back
  have hempty : found "" = [] := parser.declarations_empty resource
  refine ⟨hmade, fun front back => ⟨happend front back, ?_⟩, fun line hline => ?_,
    fun source => ⟨hsame (parser.declarations_withReturns resource source), hsame ?_⟩,
    fun source declaration hmem => ?_, fun before after line hline hother =>
      hsame (parser.declarations_insert resource before after hline hother)⟩
  · rw [hmade, hmade, hmade, happend, List.map_append]
  · have hfound := parser.declarations_of_notMem resource hline
    refine ⟨hfound, ?_⟩
    rw [hmade, ModelineParser.parseLine, parser.parseChars_eq, ← hfound]
  · have hend := happend source ""
    rwa [String.append_empty, hempty, List.append_nil] at hend
  · have hsolid := ModelineParser.solid_of_mem_declarations hmem
    exact ⟨hsolid, fun hreturn => absurd (hsolid '\r' hreturn) (by decide)⟩

/-- A source with both ways to end a line and a carriage return that ends none, with a line between
its modelines and without it. -/
theorem customizers_of_source_with_returns :
    let echo : ModelineTrait String := ⟨"Name", fun resource value =>
      ⟨fun _ => [resource.location ++ "=" ++ value]⟩⟩
    let parser := ModelineParser.ofTraits [echo]
    let made := parser.parseSource ⟨"r"⟩
    let values (source : String) := (parser.declarations ⟨"r"⟩ source).map Declaration.value
    ('\n' ∉ "fn main() \x7b\x7d".toList ∧ isModeline "fn main() \x7b\x7d" = false ∧
        made "// relay: name=a\r\nfn main() \x7b\x7d\n#relay: NAME=b=c\r" =
          made "// relay: name=a\r\n#relay: NAME=b=c\r") ∧
      ('\n' ∉ "#relay: NAME=b=c\r".toList ∧
        made "#relay: NAME=b=c\r" = parser.parseLine ⟨"r"⟩ "#relay: NAME=b=c\r") ∧
      values "// relay: name=a\r\nfn main() \x7b\x7d\n#relay: NAME=b=c\r" = ["a", "b=c"] := by
  intro echo parser made values
  obtain ⟨-, -, hline, -, -, hinsert⟩ := customizers_of_source parser ⟨"r"⟩
  have hother : '\n' ∉ "fn main() \x7b\x7d".toList := by decide
  have hmodeline : isModeline "fn main() \x7b\x7d" = false := by decide
  have hlast : '\n' ∉ "#relay: NAME=b=c\r".toList := by decide
  have hwith := (hinsert ["// relay: name=a\r"] ["#relay: NAME=b=c\r"] _ hother hmodeline).2
  exact ⟨⟨hother, hmodeline, hwith⟩, ⟨hlast, (hline _ hlast).2⟩, by decide⟩

end MessageExchange
