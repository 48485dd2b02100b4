import MessageExchange.Proofs.Exchange.Updates
import MessageExchange.Proofs.Modeline.Dispatch
import MessageExchange.Proofs.Text.LowerCase
import Mathlib.Data.List.Forall2

/-!
# Names in another case

Headers and traits are found under the lower case of their names.  A name in another
case (`CaseVariant`) has the same lower case, even where letters expand or where a
sigma stands at the end of a word.  So it names the same header and the same trait
(`names_regardless_of_case`).  Two headers may differ in the spelling that was set
first, and in nothing else.

A key of a declaration holds neither white space nor an equals sign, and no more does
the key in another case.  So a word of a modeline stays one word, and is cut at the
same equals sign.
-/

namespace MessageExchange

open Text (Solid Spaced Separates)
open Modeline (Written Cut)

variable {ε : Type} {name other : String}

/-! ## Names -/

/-- A name in another case: letters of ASCII are in the other case, or all is in lower case.  Of all
characters `Char.toLower` maps the capital letters of ASCII only. -/
inductive CaseVariant (name : String) : String → Prop where
  | ascii {other : String} :
      name.toList.map Char.toLower = other.toList.map Char.toLower → CaseVariant name other
  | lower : CaseVariant name (Text.toLower name)

namespace CaseVariant

theorem refl (name : String) : CaseVariant name name := .ascii rfl

theorem toLower_eq (h : CaseVariant name other) : Text.toLower other = Text.toLower name := by
  cases h with
  | ascii hletters => exact (Text.toLower_eq_of_ascii hletters).symm
  | lower => exact Text.toLower_toLower name

/-- Both names hold the same white space and equals signs. -/
theorem mem_iff (h : CaseVariant name other) {c : Char} (hc : Separates c) :
    c ∈ other.toList ↔ c ∈ name.toList := by
  rw [← Text.mem_toLower_iff hc, h.toLower_eq, Text.mem_toLower_iff hc]

theorem solid (h : CaseVariant name other) (hname : Solid name.toList) : Solid other.toList := by
  intro c hc
  rw [Bool.eq_false_iff]
  intro hspace
  have hmem := (h.mem_iff (.inl hspace)).1 hc
  rw [hname c hmem] at hspace
  cases hspace

/-- A word with a key is again a word with its key in another case. -/
theorem word (h : CaseVariant name other) {word value : List Char}
    (hcut : Cut word name.toList value) (hword : Solid word) :
    Solid (other.toList ++ '=' :: value) ∧
      Cut (other.toList ++ '=' :: value) other.toList value := by
  obtain ⟨rfl, hkey⟩ := hcut
  have hname : Solid name.toList := fun c hc => hword c (List.mem_append_left _ hc)
  have hvalue : Solid ('=' :: value) := fun c hc => hword c (List.mem_append_right _ hc)
  exact ⟨(h.solid hname).append hvalue, rfl, fun hmem => hkey ((h.mem_iff (.inr rfl)).1 hmem)⟩

end CaseVariant

/-! ## Headers -/

/-- A new entry goes to a place that its key alone decides. -/
theorem KeyMap.exists_insertEntry {α : Type} {key : String} {entries : List (String × α)}
    (h : lookup key entries = none) :
    ∃ before after, entries = before ++ after ∧
      ∀ value, insertEntry key value entries = before ++ (key, value) :: after := by
  induction entries with
  | nil => exact ⟨[], [], rfl, fun _ => rfl⟩
  | cons entry rest ih =>
      obtain ⟨k, v⟩ := entry
      rw [lookup] at h
      split at h
      · cases h
      · next hne =>
        by_cases hlt : key < k
        · refine ⟨[], (k, v) :: rest, rfl, fun value => ?_⟩
          rw [insertEntry, if_pos hlt]
          rfl
        · obtain ⟨before, after, rfl, hinsert⟩ := ih h
          refine ⟨(k, v) :: before, after, rfl, fun value => ?_⟩
          rw [insertEntry, if_neg hlt, if_neg (Ne.symm hne), hinsert]
          rfl

namespace Headers

theorem key_eq (h : CaseVariant name other) : key other = key name := h.toLower_eq

theorem find?_variant (h : CaseVariant name other) (headers : Headers) :
    headers.find? other = headers.find? name := by
  rw [find?, find?, key_eq h]

theorem contains_variant (h : CaseVariant name other) (headers : Headers) :
    headers.contains other = headers.contains name := by
  rw [contains, contains, key_eq h]

theorem erase_variant (h : CaseVariant name other) (headers : Headers) :
    headers.erase other = headers.erase name :=
  ext_entries (congrArg headers.entries.erase (key_eq h))

/-- A header that is there keeps its spelling, so the state is the same. -/
theorem insert_variant_of_contains (h : CaseVariant name other) {headers : Headers}
    (hname : headers.contains name = true) (value : Value) :
    headers.insert other value = headers.insert name value := by
  obtain ⟨entry, hentry⟩ := Option.isSome_iff_exists.1 hname
  apply ext_entries
  rw [entries_insert, entries_insert, spelling?, spelling?, key_eq h, hentry]
  rfl

/-- A new header has the spelling that it is set under, at the same place. -/
theorem insert_variant_of_not_contains (h : CaseVariant name other) {headers : Headers}
    (hname : headers.contains name = false) (value : Value) :
    ∃ before after, headers.toList = before ++ after ∧
      (headers.insert name value).toList = before ++ (name, value) :: after ∧
      (headers.insert other value).toList = before ++ (other, value) :: after := by
  have hnone : headers.entries.find? (key name) = none := by
    rw [contains, KeyMap.contains, Option.isSome_eq_false_iff, Option.isNone_iff_eq_none] at hname
    exact hname
  obtain ⟨before, after, hentries, hinsert⟩ := KeyMap.exists_insertEntry hnone
  have hlist : headers.toList = before.map Prod.snd ++ after.map Prod.snd := by
    rw [← List.map_append, ← hentries]
    rfl
  have hspelled {spelling : String} (hkey : key spelling = key name) :
      (headers.insert spelling value).toList =
        before.map Prod.snd ++ (spelling, value) :: after.map Prod.snd := by
    rw [toList, entries_insert, spelling?, hkey, hnone]
    exact (congrArg _ (hinsert _)).trans List.map_append
  exact ⟨_, _, hlist, hspelled rfl, hspelled (key_eq h)⟩

end Headers

/-- The same call under a name in another case. -/
inductive HeaderCall.Variant : HeaderCall → HeaderCall → Prop where
  | insert {name other : String} (variant : CaseVariant name other) (value : Value) :
      Variant (.insert name value) (.insert other value)
  | erase {name other : String} (variant : CaseVariant name other) :
      Variant (.erase name) (.erase other)

/-- Headers that agree on every value still do after a call and the same call in another case, and
the calls have one answer. -/
theorem Headers.step_variant {headers others : Headers} {call call' : HeaderCall}
    (hvalues : ∀ name, others.find? name = headers.find? name) (h : call.Variant call') :
    (others.step call').1 = (headers.step call).1 ∧
      ∀ name, (others.step call').2.find? name = (headers.step call).2.find? name := by
  cases h with
  | insert variant value =>
      refine ⟨(hvalues _).trans (find?_variant variant headers), fun name => ?_⟩
      rw [step, step, getThenInsert, getThenInsert, find?_insert, find?_insert, key_eq variant,
        hvalues]
  | erase variant =>
      refine ⟨(hvalues _).trans (find?_variant variant headers), fun name => ?_⟩
      rw [step, step, getThenErase, getThenErase, find?_erase, find?_erase, key_eq variant, hvalues]

theorem Headers.history_variant {calls calls' : List HeaderCall}
    (h : List.Forall₂ HeaderCall.Variant calls calls') {headers others : Headers}
    (hvalues : ∀ name, others.find? name = headers.find? name) :
    (History.run step others calls').1 = (History.run step headers calls).1 ∧
      ∀ name, (History.run step others calls').2.find? name =
        (History.run step headers calls).2.find? name := by
  induction h generalizing headers others with
  | nil => exact ⟨rfl, hvalues⟩
  | cons first _ ih =>
      obtain ⟨hanswer, hnext⟩ := step_variant hvalues first
      obtain ⟨hanswers, hlast⟩ := ih hnext
      exact ⟨congrArg₂ List.cons hanswer hanswers, hlast⟩

/-! ## Traits -/

/-- The same trait with its name in another case. -/
def ModelineTrait.Renamed (modelineTrait renamed : ModelineTrait ε) : Prop :=
  CaseVariant modelineTrait.name renamed.name ∧ renamed.customizer = modelineTrait.customizer

/-- What the latest trait makes hangs on the lower case of the names only. -/
theorem latest?_map_customizer (added : List (ModelineTrait ε)) (name : String) :
    (latest? added name).map ModelineTrait.customizer =
      (((added.map fun modelineTrait =>
        (Text.toLower modelineTrait.name, modelineTrait.customizer)).filter fun entry =>
          entry.1 = Text.toLower name).getLast?).map Prod.snd := by
  rw [latest?, List.filter_map, List.getLast?_map, Option.map_map]
  rfl

theorem latest?_variant (h : CaseVariant name other) {added renamed : List (ModelineTrait ε)}
    (hadded : List.Forall₂ ModelineTrait.Renamed added renamed) :
    (latest? renamed other).map ModelineTrait.customizer =
      (latest? added name).map ModelineTrait.customizer := by
  have hentries : (renamed.map fun modelineTrait =>
        (Text.toLower modelineTrait.name, modelineTrait.customizer)) =
      added.map fun modelineTrait =>
        (Text.toLower modelineTrait.name, modelineTrait.customizer) := by
    induction hadded with
    | nil => rfl
    | cons first _ ih => rw [List.map_cons, List.map_cons, ih, first.1.toLower_eq, first.2]
  rw [latest?_map_customizer, latest?_map_customizer, hentries, h.toLower_eq]

/-! ## Words -/

/-- A word of a modeline, with its key in another case if it has one. -/
inductive WordVariant (word : List Char) : List Char → Prop where
  | same : WordVariant word word
  | key {name other : String} {value changed : List Char} (variant : CaseVariant name other)
      (cut : Cut word name.toList value) (cut' : Cut changed other.toList value) :
      WordVariant word changed

theorem made?_variant {added renamed : List (ModelineTrait ε)}
    (hadded : List.Forall₂ ModelineTrait.Renamed added renamed) (resource : Resource)
    {word changed : List Char} (h : WordVariant word changed) :
    made? renamed resource changed = made? added resource word := by
  have hcut {name other : String} {value word changed : List Char}
      (variant : CaseVariant name other) (cut : Cut word name.toList value)
      (cut' : Cut changed other.toList value) :
      made? renamed resource changed = made? added resource word := by
    have hmade (traits : List (ModelineTrait ε)) (name : String) :
        ((latest? traits name).map fun modelineTrait =>
          modelineTrait.customizer resource (String.ofList value)) =
        ((latest? traits name).map ModelineTrait.customizer).map fun customizer =>
          customizer resource (String.ofList value) := by
      rw [Option.map_map]
      rfl
    rw [ModelineParser.made?_of_cut renamed resource cut',
      ModelineParser.made?_of_cut added resource cut, String.ofList_toList, String.ofList_toList,
      hmade, latest?_variant variant hadded, ← hmade]
  cases h with
  | key variant cut cut' => exact hcut variant cut cut'
  | same =>
      by_cases hmem : '=' ∈ word
      · have cut := Modeline.cut_takeWhile hmem
        rw [← String.toList_ofList (l := word.takeWhile (· ≠ '='))] at cut
        exact hcut (.refl _) cut cut
      · rw [made?, made?, if_neg hmem, if_neg hmem]

theorem filterMap_made?_variant {added renamed : List (ModelineTrait ε)}
    (hadded : List.Forall₂ ModelineTrait.Renamed added renamed) (resource : Resource)
    {ws changed : List (List Char)} (h : List.Forall₂ WordVariant ws changed) :
    changed.filterMap (made? renamed resource) = ws.filterMap (made? added resource) := by
  induction h with
  | nil => rfl
  | cons first _ ih =>
      rw [List.filterMap_cons, List.filterMap_cons, made?_variant hadded resource first, ih]

/-! ## Every name -/

/-- A name in another case finds, sets and removes the same header in any headers, with the same
answer and to the same effect.  Only a header that was not there is kept under the spelling of the
call, at the same place in the list.  Histories of calls in another case give the same answers and
leave the same values.  A name in another case finds the same trait, and with the traits renamed
the trait in its place.  A word stays a word of a declaration with its key in another case, and a
modeline with such words makes the same customizers. -/
theorem names_regardless_of_case (h : CaseVariant name other) :
    (∀ headers : Headers,
      headers.find? other = headers.find? name ∧
      headers.contains other = headers.contains name ∧
      headers.getThenErase other = headers.getThenErase name ∧
      ∀ value, (headers.getThenInsert other value).1 = (headers.getThenInsert name value).1 ∧
        (headers.contains name = true →
          headers.insert other value = headers.insert name value) ∧
        (headers.contains name = false →
          ∃ before after, headers.toList = before ++ after ∧
            (headers.insert name value).toList = before ++ (name, value) :: after ∧
            (headers.insert other value).toList = before ++ (other, value) :: after)) ∧
    (∀ calls calls', List.Forall₂ HeaderCall.Variant calls calls' →
      (History.run Headers.step .empty calls').1 = (History.run Headers.step .empty calls).1 ∧
      ∀ name, (History.run Headers.step .empty calls').2.find? name =
        (History.run Headers.step .empty calls).2.find? name) ∧
    (∀ added : List (ModelineTrait ε),
      (ModelineParser.ofTraits added).find? other = (ModelineParser.ofTraits added).find? name) ∧
    (∀ word value, Cut word name.toList value → Solid word →
      Solid (other.toList ++ '=' :: value) ∧
        Cut (other.toList ++ '=' :: value) other.toList value) ∧
    ∀ added renamed : List (ModelineTrait ε), List.Forall₂ ModelineTrait.Renamed added renamed →
      ((ModelineParser.ofTraits renamed).find? other).map ModelineTrait.customizer =
        ((ModelineParser.ofTraits added).find? name).map ModelineTrait.customizer ∧
      ∀ (resource : Resource) (line line' : String) (rest rest' : List Char)
        (ws ws' : List (List Char)),
        Written line.toList rest → Spaced ws rest → Written line'.toList rest' → Spaced ws' rest' →
        List.Forall₂ WordVariant ws ws' →
          (ModelineParser.ofTraits renamed).parseLine resource line' =
            (ModelineParser.ofTraits added).parseLine resource line := by
  refine ⟨fun headers => ⟨Headers.find?_variant h headers, Headers.contains_variant h headers, ?_,
    fun value => ⟨Headers.find?_variant h headers,
      fun hname => Headers.insert_variant_of_contains h hname value,
      fun hname => Headers.insert_variant_of_not_contains h hname value⟩⟩,
    fun calls calls' hcalls => Headers.history_variant hcalls fun _ => rfl, fun added => ?_,
    fun word value => h.word, fun added renamed hadded => ⟨?_, ?_⟩⟩
  · exact congrArg₂ Prod.mk (Headers.find?_variant h headers) (Headers.erase_variant h headers)
  · rw [ModelineParser.find?, ModelineParser.find?, h.toLower_eq]
  · rw [ModelineParser.find?_ofTraits, ModelineParser.find?_ofTraits]
    exact latest?_variant h hadded
  · intro resource line line' rest rest' ws ws' hline hrest hline' hrest' hwords
    rw [ModelineParser.parseLine, ModelineParser.parseLine,
      ModelineParser.parseChars_of_written renamed resource hline' hrest',
      ModelineParser.parseChars_of_written added resource hline hrest]
    exact filterMap_made?_variant hadded resource hwords

/-- The lower case of this name is longer than the name, and its sigma is a final one. -/
theorem names_regardless_of_case_of_sigma :
    let given : ModelineTrait String := ⟨"İΣ", fun _ value => ⟨fun _ => [value]⟩⟩
    let renamed : ModelineTrait String := { given with name := "i\u0307ς" }
    let headers := Headers.empty.insert "İΣ" (.int 1)
    CaseVariant "İΣ" "i\u0307ς" ∧ headers.find? "i\u0307ς" = headers.find? "İΣ" ∧
      headers.contains "İΣ" = true ∧
      headers.insert "i\u0307ς" .null = headers.insert "İΣ" .null ∧
      List.Forall₂ ModelineTrait.Renamed [given] [renamed] ∧
      Written "# relay:İΣ=1".toList "İΣ=1".toList ∧
      Written "// relay:i\u0307ς=1".toList "i\u0307ς=1".toList ∧
      (ModelineParser.ofTraits [renamed]).parseLine ⟨"r"⟩ "// relay:i\u0307ς=1" =
        (ModelineParser.ofTraits [given]).parseLine ⟨"r"⟩ "# relay:İΣ=1" := by
  intro given renamed headers
  have hlower : Text.toLower "İΣ" = "i\u0307ς" := by decide +kernel
  have hvariant : CaseVariant "İΣ" "i\u0307ς" := hlower ▸ .lower
  obtain ⟨hheaders, -, -, -, htraits⟩ := names_regardless_of_case (ε := String) hvariant
  obtain ⟨hfind, -, -, hinsert⟩ := hheaders headers
  have hcontains : headers.contains "İΣ" = true := by decide +kernel
  have hrenamed : List.Forall₂ ModelineTrait.Renamed [given] [renamed] :=
    .cons ⟨hvariant, rfl⟩ .nil
  have hblank : Text.Blank [' '] := Text.Blank.nil.cons (by decide)
  have hline : Written "# relay:İΣ=1".toList "İΣ=1".toList :=
    ⟨[], "#".toList, [' '], Text.Blank.nil, .inr rfl, hblank, by decide⟩
  have hline' : Written "// relay:i\u0307ς=1".toList "i\u0307ς=1".toList :=
    ⟨[], "//".toList, [' '], Text.Blank.nil, .inl rfl, hblank, by decide⟩
  have hcut : Cut "İΣ=1".toList "İΣ".toList ['1'] := ⟨by decide, by decide⟩
  have hcut' : Cut "i\u0307ς=1".toList "i\u0307ς".toList ['1'] := ⟨by decide, by decide⟩
  have hword : WordVariant "İΣ=1".toList "i\u0307ς=1".toList := .key hvariant hcut hcut'
  refine ⟨hvariant, hfind, hcontains, (hinsert .null).2.1 hcontains, hrenamed, hline, hline', ?_⟩
  exact (htraits [given] [renamed] hrenamed).2 ⟨"r"⟩ _ _ _ _ _ _ hline
    (Text.spaced_iff.2 (by decide)) hline' (Text.spaced_iff.2 (by decide)) (.cons hword .nil)

end MessageExchange
