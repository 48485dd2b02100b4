import MessageExchange.Dump.Provision

/-!
# Clipped bodies

`Clipped` says what is shown of a text under a limit.  It is the whole text if the
limit is not positive or the text is no longer than that, and otherwise the start of
the text, as long as the limit says, with a note after it.  Lengths count
characters.  One thing is shown under each limit (`Clipped.unique`), and never less
under a greater one (`Clipped.start_of_le`).

A formatter that is made for a context reads its limit from an option.  Its dump
has a line for the body, and no other line depends on the limit (`dump_limit`).
-/

namespace MessageExchange

/-! ## Texts under a limit -/

/-- What is kept of a text under a limit, and the note after it. -/
inductive Clipped (limit : Int) (text : String) : String → String → Prop where
  | whole : limit ≤ 0 ∨ (text.length : Int) ≤ limit → Clipped limit text text ""
  /-- The text is cut after as many characters as the limit says. -/
  | cut {kept rest : String} :
      0 < limit → text = kept ++ rest → (kept.length : Int) = limit → rest ≠ "" →
      Clipped limit text kept
        ("... [Body clipped after " ++ String.ofList (Decimal.ofNat kept.length) ++
          " chars, total length is " ++ String.ofList (Decimal.ofNat text.length) ++ "]")

namespace Clipped

variable {limit wider : Int} {text kept note kept' note' : String}

theorem length_lt {rest : String} (htext : text = kept ++ rest) (hrest : rest ≠ "") :
    kept.length < text.length := by
  have hpos : rest.length ≠ 0 := fun hzero => hrest (String.length_eq_zero_iff.1 hzero)
  rw [htext, String.length_append]
  omega

theorem start (h : Clipped limit text kept note) : kept.toList <+: text.toList := by
  cases h with
  | whole _ => exact List.prefix_rfl
  | cut _ htext _ _ =>
      rw [htext, String.toList_append]
      exact List.prefix_append _ _

theorem length_kept (h : Clipped limit text kept note) (hpos : 0 < limit) :
    (kept.length : Int) = min limit text.length := by
  cases h with
  | whole hshort => omega
  | cut _ htext hlength hrest =>
      have hlt := length_lt htext hrest
      omega

/-- A greater limit never shows less. -/
theorem start_of_le (h : Clipped limit text kept note) (h' : Clipped wider text kept' note')
    (hpos : 0 < limit) (hle : limit ≤ wider) : kept.toList <+: kept'.toList := by
  have hlength := h.length_kept hpos
  have hlength' := h'.length_kept (by omega)
  apply List.prefix_of_prefix_length_le h.start h'.start
  simp only [String.length_toList]
  omega

/-- One thing is shown under each limit. -/
theorem unique (h : Clipped limit text kept note) (h' : Clipped limit text kept' note') :
    kept' = kept ∧ note' = note := by
  cases h with
  | whole hwhole =>
      cases h' with
      | whole _ => exact ⟨rfl, rfl⟩
      | cut hpos htext hlength hrest =>
          have hlt := length_lt htext hrest
          omega
  | @cut _ rest hpos htext hlength hrest =>
      cases h' with
      | whole hwhole =>
          have hlt := length_lt htext hrest
          omega
      | @cut _ rest' _ htext' hlength' _ =>
          have happend : kept'.toList ++ rest'.toList = kept.toList ++ rest.toList := by
            rw [← String.toList_append, ← String.toList_append, ← htext, ← htext']
          have hsize : kept'.toList.length = kept.toList.length := by
            simp only [String.length_toList]
            omega
          have hkept : kept' = kept := String.toList_inj.1 (List.append_inj happend hsize).1
          exact ⟨hkept, by rw [hkept]⟩

end Clipped

/-! ## Bodies -/

namespace DumpSettings

/-- Cutting a text leaves what its limit shows, with the note after it. -/
theorem clipped_clip {count : Nat} (hpos : 0 < count) (text : String) :
    ∃ kept note, Clipped count text kept note ∧ clip count text = kept ++ note := by
  rw [clip]
  split
  · next hle =>
    rw [String.length_toList] at hle
    exact ⟨text, "", .whole (.inr (by omega)), String.append_empty.symm⟩
  · next hlt =>
    rw [String.length_toList] at hlt
    obtain ⟨kept, hkept⟩ : ∃ kept, kept = String.ofList (text.toList.take count) := ⟨_, rfl⟩
    have htext : text = kept ++ String.ofList (text.toList.drop count) := by
      rw [hkept, ← String.ofList_append, List.take_append_drop, String.ofList_toList]
    have hlength : kept.length = count := by
      rw [hkept, String.length_ofList, List.length_take, String.length_toList]
      omega
    have hrest : String.ofList (text.toList.drop count) ≠ "" := by
      intro hempty
      rw [hempty, String.append_empty] at htext
      rw [htext] at hlt
      omega
    refine ⟨kept, _, .cut (by omega) htext (congrArg Nat.cast hlength) hrest, ?_⟩
    have hassoc (a b c d e f : String) :
        a ++ b ++ c ++ d ++ e ++ f = a ++ (b ++ c ++ d ++ e ++ f) := by
      simp only [String.append_assoc]
    rw [hlength, ← String.length_toList, hkept]
    exact hassoc _ _ _ _ _ _

theorem clipped_bodyText (settings : DumpSettings) {converter : TypeConverter} {body : Value}
    (hnull : body ≠ .null) {text : String} (htext : converter.toText body = some text) :
    ∃ kept note, Clipped settings.maxChars.toInt text kept note ∧
      settings.bodyText converter body = kept ++ note := by
  have hpresent : body.isNull = false := Bool.eq_false_iff.2 (mt Value.isNull_iff.1 hnull)
  by_cases hpos : 0 < settings.maxChars.toInt
  · have hcount : 0 < settings.maxChars.toInt.toNat := by omega
    obtain ⟨kept, note, hclipped, hclip⟩ := clipped_clip hcount text
    rw [Int.toNat_of_nonneg (by omega)] at hclipped
    refine ⟨kept, note, hclipped, ?_⟩
    rw [bodyText, hpresent, htext, ← hclip]
    exact if_pos hpos
  · refine ⟨text, "", .whole (.inl (by omega)), ?_⟩
    rw [bodyText, hpresent, htext, String.append_empty]
    exact if_neg hpos

theorem bodyText_of_toText_eq_none (settings : DumpSettings) {converter : TypeConverter}
    {body : Value} (hnull : body ≠ .null) (hnone : converter.toText body = none) :
    settings.bodyText converter body = "[Body is instance of " ++ body.typeName ++ "]" := by
  have hpresent : body.isNull = false := Bool.eq_false_iff.2 (mt Value.isNull_iff.1 hnull)
  rw [bodyText, hpresent, hnone]
  rfl

end DumpSettings

/-! ## Provided formatters -/

/-- The lines of a dump in the fixed style that shows the identifier and the headers besides what is
shown anyway, where `body` is what it says of the body. -/
def providedLines (converter : TypeConverter) (x : Exchange) (body : String) : List String :=
  ["Id                  " ++ x.id.text,
    "Headers             " ++ DumpSettings.mapText converter x.message.headers.toList,
    "BodyType            " ++ x.message.body.typeName,
    "Body                " ++ body] ++
    (x.failure? converter).toList.map fun failure => "Exception           " ++ failure.display

namespace DumpSettings

theorem sections_limit (n : Int32) (converter : TypeConverter) (x : Exchange) :
    let settings := providedSettings.limit (some n)
    settings.sections converter x =
      providedLines converter x (settings.bodyText converter x.message.body) := by
  intro settings
  have hlabel (title : String) :
      settings.label title = String.ofList (title.toList.rightpad 20 ' ') := rfl
  have hid : settings.label "Id" = "Id                  " := (hlabel _).trans (by decide)
  have hheaders : settings.label "Headers" = "Headers             " := (hlabel _).trans (by decide)
  have htype : settings.label "BodyType" = "BodyType            " := (hlabel _).trans (by decide)
  have hbody : settings.label "Body" = "Body                " := (hlabel _).trans (by decide)
  have hexception : settings.label "Exception" = "Exception           " :=
    (hlabel _).trans (by decide)
  have hshown : DumpSection.all.filter settings.shows =
      [.id, .headers, .bodyType, .body, .exception] := rfl
  rw [sections, hshown, providedLines, ← hid, ← hheaders, ← htype, ← hbody, ← hexception]
  cases hfailure : x.failure? converter with
  | none => simp [sectionText?, content?, hfailure, DumpSection.title]
  | some failure => simp [sectionText?, content?, hfailure, DumpSection.title]

theorem dump_limit (n : Int32) (converter : TypeConverter) (x : Exchange) :
    let settings := providedSettings.limit (some n)
    settings.dump converter x = "Exchange[\n" ++
      "\n".intercalate
        (providedLines converter x (settings.bodyText converter x.message.body)) ++ "\n]" := by
  intro settings
  rw [← sections_limit]
  rfl

end DumpSettings

namespace Context

variable {ε : Type} {context : Context ε} {env : Environment} {text : String} {n : Int32}

/-- Without a formatter that is bound, the option sets the limit of a new one. -/
theorem provideFormatter_of_option (hbound : context.registry.findAll .formatter = [])
    (hoption : context.option? "RelayLogDebugBodyMaxChars" = some text)
    (hread : context.options.parseInteger env (some text) = .ok (some n)) (fresh : Nat) :
    context.provideFormatter env none fresh =
      .ok ((providedSettings.limit (some n)).toFormatter fresh) := by
  have hnone : context.registry.findSingle? BeanKind.formatter = none := by
    rw [Registry.findSingle?, hbound]
  have hsettings : context.dumpSettings env = .ok (providedSettings.limit (some n)) := by
    rw [dumpSettings, bodyMaxCharsKey, hoption, hread]
  simp only [provideFormatter, hnone, hsettings, Except.map]

end Context

/-- Where no formatter is bound and the option gives a limit, the formatter of the context shows of
every body with a text what the limit shows of the text: all of it, or the start that is as long as
the limit says and a note after it.  Under a greater limit it is never less.  A null body and a body
without a text are never cut.  The other lines of the dump do not depend on the limit. -/
theorem body_within_limit {ε : Type} (context : Context ε) (env : Environment) (fresh : Nat)
    (text : String) (n : Int32) (hbound : context.registry.findAll .formatter = [])
    (hoption : context.option? "RelayLogDebugBodyMaxChars" = some text)
    (hread : context.options.parseInteger env (some text) = .ok (some n)) :
    ∃ formatter, context.provideFormatter env none fresh = .ok formatter ∧
      ∀ (converter : TypeConverter) (x : Exchange),
        let shows (body : String) := formatter.format converter x = "Exchange[\n" ++
          "\n".intercalate (providedLines converter x body) ++ "\n]"
        (∀ body, x.message.body ≠ .null → converter.toText x.message.body = some body →
          ∃ kept note, shows (kept ++ note) ∧ kept.toList <+: body.toList ∧
            (∀ kept' note', Clipped n.toInt body kept' note' ↔ kept' = kept ∧ note' = note) ∧
            ∀ wider kept' note', 0 < n.toInt → n.toInt ≤ wider →
              Clipped wider body kept' note' → kept.toList <+: kept'.toList) ∧
          (x.message.body = .null → shows "[Body is null]") ∧
          (x.message.body ≠ .null → converter.toText x.message.body = none →
            shows ("[Body is instance of " ++ x.message.body.typeName ++ "]")) := by
  refine ⟨_, Context.provideFormatter_of_option hbound hoption hread fresh, fun converter x => ?_⟩
  intro shows
  have hdump : shows ((providedSettings.limit (some n)).bodyText converter x.message.body) :=
    DumpSettings.dump_limit n converter x
  refine ⟨fun body hnull hbody => ?_, fun hnull => ?_, fun hnull hnone => ?_⟩
  · obtain ⟨kept, note, hclipped, htext⟩ := DumpSettings.clipped_bodyText
      (providedSettings.limit (some n)) hnull hbody
    refine ⟨kept, note, htext ▸ hdump, hclipped.start, fun kept' note' => ⟨hclipped.unique, ?_⟩,
      fun wider kept' note' hpos hle h' => hclipped.start_of_le h' hpos hle⟩
    rintro ⟨rfl, rfl⟩
    exact hclipped
  · rw [hnull] at hdump
    exact hdump
  · rw [DumpSettings.bodyText_of_toText_eq_none _ hnull hnone] at hdump
    exact hdump

/-- A limit of three that another option gives, and a text of four characters in more bytes. -/
theorem body_within_limit_of_placeholder :
    let options : Options :=
      KeyMap.ofList [("RelayLogDebugBodyMaxChars", "\x7b\x7b limit \x7d\x7d"), ("limit", " +3")]
    let context : Context Unit := { options }
    let x := (Exchange.new ⟨0⟩ .epoch).setBody (.text "éa😀z")
    (context.registry.findAll .formatter = [] ∧
        context.option? "RelayLogDebugBodyMaxChars" = some "\x7b\x7b limit \x7d\x7d" ∧
        options.parseInteger .empty (some "\x7b\x7b limit \x7d\x7d") = .ok (some 3) ∧
        x.message.body ≠ .null ∧ TypeConverter.standard.toText x.message.body = some "éa😀z") ∧
      ∃ formatter, context.provideFormatter .empty none 0 = .ok formatter ∧
        formatter.format .standard x = "Exchange[\n" ++
          "\n".intercalate (providedLines .standard x
            "éa😀... [Body clipped after 3 chars, total length is 4]") ++ "\n]" := by
  intro options context x
  have hbound : context.registry.findAll .formatter = [] := rfl
  have hoption :
      context.option? "RelayLogDebugBodyMaxChars" = some "\x7b\x7b limit \x7d\x7d" := by decide
  have hread :
      options.parseInteger .empty (some "\x7b\x7b limit \x7d\x7d") = .ok (some 3) := rfl
  have hnull : x.message.body ≠ .null := nofun
  have htext : TypeConverter.standard.toText x.message.body = some "éa😀z" := rfl
  obtain ⟨formatter, hprovided, hformat⟩ :=
    body_within_limit context .empty 0 _ 3 hbound hoption hread
  obtain ⟨kept, note, hshown, -, hclipped, -⟩ := (hformat .standard x).1 _ hnull htext
  have happend : "éa😀z" = "éa😀" ++ "z" := by decide
  have hcut : Clipped (3 : Int32).toInt "éa😀z" "éa😀"
      ("... [Body clipped after " ++ String.ofList (Decimal.ofNat "éa😀".length) ++
        " chars, total length is " ++ String.ofList (Decimal.ofNat "éa😀z".length) ++ "]") :=
    .cut (by decide) happend (by decide) (by decide)
  obtain ⟨rfl, rfl⟩ := (hclipped _ _).1 hcut
  refine ⟨⟨hbound, hoption, hread, hnull, htext⟩, formatter, hprovided, ?_⟩
  exact hshown

end MessageExchange
