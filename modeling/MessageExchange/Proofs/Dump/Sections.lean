import MessageExchange.Proofs.Dump.Clipping
import MessageExchange.Proofs.Dump.Properties
import MessageExchange.Proofs.Failure.StackTrace
import MessageExchange.Proofs.Text.Trimming

/-!
# Sections of a dump

The settings of a dump have two parts.  The *layout* is the style, the way of
setting lines and the limit of the body.  The other settings are flags, one for
each section.

Each section has its flag and its word (`DumpSection.flag`, `DumpSection.word`).  What
it says of an exchange is a relation to texts (`Says`), which speaks of the limit and
of no flag.  With the word as a label in the layout before it, this is the text that a
dump has for the section (`sectionText_iff`).  Which sections are listed depends on the
flags and on whether there is a failure to speak of (`mem_listed`).

So a dump is the texts of the listed sections joined in the frame of the layout
(`dump_eq_join`).  Turning a flag off takes its section out of the list and
changes nothing else (`listed_hide`), and joined texts lose the text together
with one separator beside it (`intercalate_remove`).
-/

namespace MessageExchange

open Text (Blank isWhiteSpace)

/-! ## Layouts -/

/-- The settings of a dump that are no flags of sections. -/
structure DumpLayout where
  style : DumpStyle
  multiline : Bool
  maxChars : Int32

namespace DumpLayout

def opening (layout : DumpLayout) : String :=
  if layout.multiline then "Exchange[\n" else "Exchange["

def closing (layout : DumpLayout) : String := if layout.multiline then "\n]" else "]"

def separator (layout : DumpLayout) : String :=
  match layout.multiline, layout.style with
  | true, _ => "\n"
  | false, .plain => ", "
  | false, .tab => ""
  | false, .fixed => " "

/-- Texts of sections in the frame of a dump. -/
def join (layout : DumpLayout) (texts : List String) : String :=
  layout.opening ++ layout.separator.intercalate texts ++ layout.closing

/-- A word as the label of a section.  The fixed style fills it up with spaces to a width of 20. -/
def label (layout : DumpLayout) (word : String) : String :=
  match layout.style, layout.multiline with
  | .plain, true => "  " ++ word ++ ": "
  | .plain, false => word ++ ": "
  | .tab, _ => "\t" ++ word ++ ": "
  | .fixed, _ => word ++ String.ofList (List.replicate (20 - word.length) ' ')

end DumpLayout

/-! ## What a section says -/

/-- The text of a header or a property.  A value without a text shows its type in brackets. -/
inductive ValueText (converter : TypeConverter) : Value → String → Prop where
  | null : ValueText converter .null "null"
  | text {value : Value} {text : String} :
      value ≠ .null → converter.toText value = some text → ValueText converter value text
  | other {value : Value} :
      value ≠ .null → converter.toText value = none →
      ValueText converter value ("[" ++ value.typeName ++ "]")

/-- A key and a value as a section lists them. -/
inductive EntryText (converter : TypeConverter) : String × Value → String → Prop where
  | of {key : String} {value : Value} {text : String} :
      ValueText converter value text → EntryText converter (key, value) (key ++ "=" ++ text)

/-- Entries as a section lists them, in braces and set apart by commas. -/
inductive Listing (converter : TypeConverter) : List (String × Value) → String → Prop where
  | of {entries : List (String × Value)} {texts : List String} :
      List.Forall₂ (EntryText converter) entries texts →
      Listing converter entries ("\x7b" ++ ", ".intercalate texts ++ "\x7d")

/-- The text of a body under a limit.  A body without a text shows its type. -/
inductive BodyText (limit : Int) (converter : TypeConverter) : Value → String → Prop where
  | null : BodyText limit converter .null "[Body is null]"
  | text {body : Value} {text kept note : String} :
      body ≠ .null → converter.toText body = some text → Clipped limit text kept note →
      BodyText limit converter body (kept ++ note)
  | other {body : Value} :
      body ≠ .null → converter.toText body = none →
      BodyText limit converter body ("[Body is instance of " ++ body.typeName ++ "]")

namespace DumpSection

/-- The flag of a section. -/
def flag (settings : DumpSettings) : DumpSection → Bool
  | id => settings.showId
  | headers => settings.showHeaders
  | properties => settings.showProperties
  | bodyType => settings.showBodyType
  | body => settings.showBody
  | exception => settings.showException
  | stackTrace => settings.showStackTrace

/-- The word of a section. -/
def word : DumpSection → String
  | id => "Id"
  | headers => "Headers"
  | properties => "Properties"
  | bodyType => "BodyType"
  | body => "Body"
  | exception => "Exception"
  | stackTrace => "StackTrace"

/-- What a section says of an exchange.  The limit is that of the body. -/
inductive Says (limit : Int) (converter : TypeConverter) (x : Exchange) :
    DumpSection → String → Prop where
  | id : Says limit converter x .id x.id.text
  | headers {listing : String} :
      Listing converter x.message.headers.toList listing →
      Says limit converter x .headers listing
  /-- The properties are listed in the order of their keys. -/
  | properties {entries : List (String × Value)} {listing : String} :
      x.properties.Sorted entries → Listing converter entries listing →
      Says limit converter x .properties listing
  | bodyType : Says limit converter x .bodyType x.message.body.typeName
  | body {text : String} :
      BodyText limit converter x.message.body text → Says limit converter x .body text
  | exception {failure : Failure} :
      x.failure? converter = some failure →
      Says limit converter x .exception
        (failure.typeName ++ if failure.text = "" then "" else ": " ++ failure.text)
  /-- The stack trace without the white space at its end. -/
  | stackTrace {failure : Failure} {trace : String} {kept gap : List Char} :
      x.failure? converter = some failure → failure.Trace trace →
      trace.toList = kept ++ gap → Blank gap → (∀ c ∈ kept.getLast?, isWhiteSpace c = false) →
      Says limit converter x .stackTrace (String.ofList kept)

end DumpSection

/-- The text of a section: its label and what it says. -/
inductive DumpLayout.SectionText (layout : DumpLayout) (converter : TypeConverter) (x : Exchange) :
    DumpSection → String → Prop where
  | labelled {shown : DumpSection} {content : String} :
      shown.Says layout.maxChars.toInt converter x content →
      SectionText layout converter x shown (layout.label shown.word ++ content)

/-- Has the exchange something to say in the section?  It may have no failure. -/
def DumpSection.applies (converter : TypeConverter) (x : Exchange) : DumpSection → Bool
  | exception => (x.failure? converter).isSome
  | stackTrace => (x.failure? converter).isSome
  | _ => true

theorem Failure.display_eq (f : Failure) :
    f.display = f.typeName ++ if f.text = "" then "" else ": " ++ f.text := by
  rw [display, message?]
  split
  · next message hmessage =>
    split at hmessage
    · cases hmessage
    · next hne =>
      cases hmessage
      rw [if_neg hne, String.append_assoc]
  · next hmessage =>
    split at hmessage
    · next hempty => rw [if_pos hempty, String.append_empty]
    · cases hmessage

namespace DumpSettings

def layout (settings : DumpSettings) : DumpLayout :=
  ⟨settings.style, settings.multiline, settings.maxChars⟩

/-- The settings with the flag of a section turned off. -/
def hide (settings : DumpSettings) : DumpSection → DumpSettings
  | .id => { settings with showId := false }
  | .headers => { settings with showHeaders := false }
  | .properties => { settings with showProperties := false }
  | .bodyType => { settings with showBodyType := false }
  | .body => { settings with showBody := false }
  | .exception => { settings with showException := false }
  | .stackTrace => { settings with showStackTrace := false }

/-- The sections of a dump. -/
def listed (settings : DumpSettings) (converter : TypeConverter) (x : Exchange) :
    List DumpSection :=
  DumpSection.all.filter fun shown => settings.shows shown && shown.applies converter x

/-- The text of a section.  A section that does not apply has none. -/
def text (settings : DumpSettings) (converter : TypeConverter) (x : Exchange)
    (shown : DumpSection) : String :=
  (settings.sectionText? converter x shown).getD ""

@[simp] theorem layout_hide (settings : DumpSettings) (shown : DumpSection) :
    (settings.hide shown).layout = settings.layout := by
  cases shown <;> rfl

@[simp] theorem shows_hide (settings : DumpSettings) (shown other : DumpSection) :
    (settings.hide shown).shows other = (settings.shows other && other != shown) := by
  cases shown <;> cases other <;> simp [hide, shows]

theorem shows_eq_flag (settings : DumpSettings) (shown : DumpSection) :
    settings.shows shown = shown.flag settings := by
  cases shown <;> rfl

/-! ## The text of a section -/

theorem title_eq_word (shown : DumpSection) : shown.title = shown.word := by
  cases shown <;> rfl

theorem separator_eq (settings : DumpSettings) :
    settings.separator = settings.layout.separator := by
  obtain ⟨-, -, -, -, -, -, -, multiline, style, -⟩ := settings
  cases multiline <;> cases style <;> rfl

theorem frame_eq (settings : DumpSettings) (joined : String) :
    settings.frame joined = settings.layout.opening ++ joined ++ settings.layout.closing := by
  obtain ⟨-, -, -, -, -, -, -, multiline, -, -⟩ := settings
  cases multiline <;> rfl

theorem label_eq (settings : DumpSettings) (word : String) :
    settings.label word = settings.layout.label word := by
  obtain ⟨-, -, -, -, -, -, -, multiline, style, -⟩ := settings
  cases style with
  | plain => cases multiline <;> rfl
  | tab => rfl
  | fixed =>
      show String.ofList (word.toList.rightpad labelWidth ' ') = _
      rw [List.rightpad, String.ofList_append, String.ofList_toList, String.length_toList]
      rfl

theorem valueText_iff {converter : TypeConverter} {value : Value} {text : String} :
    ValueText converter value text ↔ valueText converter value = text := by
  by_cases hnull : value = .null
  · subst hnull
    constructor
    · intro h
      cases h with
      | null => rfl
      | text hpresent _ => exact absurd rfl hpresent
      | other hpresent _ => exact absurd rfl hpresent
    · rintro rfl
      exact .null
  · have hpresent : value.isNull = false := Bool.eq_false_iff.2 (mt Value.isNull_iff.1 hnull)
    constructor
    · intro h
      cases h with
      | null => exact absurd rfl hnull
      | text _ htext => rw [valueText, hpresent, htext]; rfl
      | other _ hnone => rw [valueText, hpresent, hnone]; rfl
    · rintro rfl
      cases htext : converter.toText value with
      | some text =>
          rw [valueText, hpresent, htext]
          exact .text hnull htext
      | none =>
          rw [valueText, hpresent, htext]
          exact .other hnull htext

theorem listing_iff {converter : TypeConverter} {entries : List (String × Value)}
    {listing : String} :
    Listing converter entries listing ↔ mapText converter entries = listing := by
  have hentry : EntryText converter = fun entry s =>
      entry.1 ++ "=" ++ valueText converter entry.2 = s := by
    funext entry s
    apply propext
    constructor
    · rintro ⟨h⟩
      rw [valueText_iff.1 h]
    · rintro rfl
      exact .of (valueText_iff.2 rfl)
  have hmap (texts : List String) : List.Forall₂ (EntryText converter) entries texts ↔
      entries.map (fun entry => entry.1 ++ "=" ++ valueText converter entry.2) = texts := by
    rw [hentry, ← List.forall₂_eq_eq_eq, List.forall₂_map_left_iff]
  constructor
  · rintro ⟨h⟩
    rw [mapText, (hmap _).1 h]
  · rintro rfl
    exact .of ((hmap _).2 rfl)

theorem bodyText_iff {settings : DumpSettings} {converter : TypeConverter} {body : Value}
    {text : String} :
    BodyText settings.maxChars.toInt converter body text ↔
      settings.bodyText converter body = text := by
  constructor
  · intro h
    cases h with
    | null => rfl
    | text hnull htext hclipped =>
        obtain ⟨kept, note, hshown, hbody⟩ := settings.clipped_bodyText hnull htext
        obtain ⟨rfl, rfl⟩ := hshown.unique hclipped
        exact hbody
    | other hnull hnone => exact settings.bodyText_of_toText_eq_none hnull hnone
  · rintro rfl
    by_cases hnull : body = .null
    · subst hnull
      exact .null
    · cases htext : converter.toText body with
      | some text =>
          obtain ⟨kept, note, hclipped, hbody⟩ := settings.clipped_bodyText hnull htext
          rw [hbody]
          exact .text hnull htext hclipped
      | none =>
          rw [settings.bodyText_of_toText_eq_none hnull htext]
          exact .other hnull htext

/-- A section says what its content is, and nothing else. -/
theorem says_iff {settings : DumpSettings} {converter : TypeConverter} {x : Exchange}
    {shown : DumpSection} {content : String} :
    shown.Says settings.maxChars.toInt converter x content ↔
      settings.content? converter x shown = some content := by
  constructor
  · intro h
    cases h with
    | id => rfl
    | headers hlisting => exact congrArg some (listing_iff.1 hlisting)
    | properties hsorted hlisting =>
        rw [Dictionary.sorted_iff] at hsorted
        subst hsorted
        exact congrArg some (listing_iff.1 hlisting)
    | bodyType => rfl
    | body hbody => exact congrArg some (bodyText_iff.1 hbody)
    | exception hfailure =>
        rw [content?, hfailure, Option.map_some, Failure.display_eq]
    | stackTrace hfailure htrace htext hgap hlast =>
        rw [content?, Exchange.failureStackTrace?_eq, hfailure, Option.map_some, Option.map_some,
          Failure.trace_iff.1 htrace, htext, Text.trimEnd_append_blank hgap,
          Text.trimEnd_eq_self hlast]
  · intro h
    cases shown with
    | id =>
        cases h
        exact .id
    | headers =>
        cases h
        exact .headers (listing_iff.2 rfl)
    | properties =>
        cases h
        exact .properties x.properties.sorted_ofList_toList (listing_iff.2 rfl)
    | bodyType =>
        cases h
        exact .bodyType
    | body =>
        cases h
        exact .body (bodyText_iff.2 rfl)
    | exception =>
        obtain ⟨failure, hfailure, rfl⟩ := Option.map_eq_some_iff.1 h
        rw [Failure.display_eq]
        exact .exception hfailure
    | stackTrace =>
        obtain ⟨trace, htrace, rfl⟩ := Option.map_eq_some_iff.1 h
        rw [Exchange.failureStackTrace?_eq] at htrace
        obtain ⟨failure, hfailure, rfl⟩ := Option.map_eq_some_iff.1 htrace
        obtain ⟨gap, hgap, htext⟩ := Text.exists_trimEnd_append_blank failure.stackTrace.toList
        exact .stackTrace hfailure (Failure.trace_iff.2 rfl) htext hgap Text.getLast?_trimEnd

/-- The text of a section is its label and what it says. -/
theorem sectionText_iff {settings : DumpSettings} {converter : TypeConverter} {x : Exchange}
    {shown : DumpSection} {s : String} :
    settings.layout.SectionText converter x shown s ↔
      settings.sectionText? converter x shown = some s := by
  rw [sectionText?, Option.map_eq_some_iff, label_eq, title_eq_word]
  constructor
  · rintro ⟨h⟩
    exact ⟨_, says_iff.1 h, rfl⟩
  · rintro ⟨content, h, rfl⟩
    exact .labelled (says_iff.2 h)

/-- A section has a text if it applies. -/
theorem sectionText?_eq (settings : DumpSettings) (converter : TypeConverter) (x : Exchange)
    (shown : DumpSection) :
    settings.sectionText? converter x shown =
      if shown.applies converter x then some (settings.text converter x shown) else none := by
  have happlies : (settings.sectionText? converter x shown).isSome = shown.applies converter x := by
    rw [sectionText?, Option.isSome_map]
    cases shown with
    | stackTrace =>
        rw [content?, Option.isSome_map, Exchange.failureStackTrace?_eq, Option.isSome_map]
        rfl
    | exception => exact Option.isSome_map
    | _ => rfl
  rw [← happlies, text]
  cases settings.sectionText? converter x shown with
  | none => rfl
  | some s => rfl

/-- The text of a section is fixed by the layout. -/
theorem text_eq_of_layout_eq {settings other : DumpSettings} (h : settings.layout = other.layout)
    (converter : TypeConverter) (x : Exchange) :
    settings.text converter x = other.text converter x := by
  funext shown
  have hsome : settings.sectionText? converter x shown = other.sectionText? converter x shown := by
    apply Option.ext
    intro s
    rw [← sectionText_iff, h, sectionText_iff]
  rw [text, hsome, text]

/-- Only the plain style has other labels where each section has a line. -/
theorem text_multiline {settings : DumpSettings} (h : settings.style ≠ .plain) (multiline : Bool)
    (converter : TypeConverter) (x : Exchange) :
    ({ settings with multiline } : DumpSettings).text converter x = settings.text converter x := by
  funext shown
  have hlabel : ({ settings with multiline } : DumpSettings).label = settings.label := by
    funext title
    rw [label, label]
    cases hstyle : settings.style with
    | plain => exact absurd hstyle h
    | tab => rfl
    | fixed => rfl
  have hcontent : ({ settings with multiline } : DumpSettings).content? converter x shown =
      settings.content? converter x shown := by
    cases shown <;> rfl
  rw [text, text, sectionText?, sectionText?, hlabel, hcontent]

/-! ## Which sections are listed -/

theorem mem_listed {settings : DumpSettings} {converter : TypeConverter} {x : Exchange}
    {shown : DumpSection} :
    shown ∈ settings.listed converter x ↔
      shown.flag settings = true ∧ shown.applies converter x = true := by
  have hall : shown ∈ DumpSection.all := by cases shown <;> decide
  simp [listed, hall, shows_eq_flag]

theorem nodup_listed (settings : DumpSettings) (converter : TypeConverter) (x : Exchange) :
    (settings.listed converter x).Nodup := by
  have hall : DumpSection.all.Nodup := by decide
  exact hall.filter _

theorem listed_hide (settings : DumpSettings) (converter : TypeConverter) (x : Exchange)
    (shown : DumpSection) :
    (settings.hide shown).listed converter x =
      (settings.listed converter x).filter (· != shown) := by
  rw [listed, listed, List.filter_filter]
  apply List.filter_congr
  intro other _
  rw [shows_hide]
  cases settings.shows other <;> cases other.applies converter x <;> simp

theorem filter_bne_eq_self {sections : List DumpSection} {shown : DumpSection}
    (h : shown ∉ sections) : sections.filter (· != shown) = sections := by
  rw [List.filter_eq_self]
  intro other hmem
  have hne : other ≠ shown := fun heq => h (heq ▸ hmem)
  simpa using hne

/-- Hiding a section that is listed takes it out from between the others. -/
theorem listed_hide_of_eq_append {settings : DumpSettings} {converter : TypeConverter}
    {x : Exchange} {shown : DumpSection} {before after : List DumpSection}
    (h : settings.listed converter x = before ++ shown :: after) :
    (settings.hide shown).listed converter x = before ++ after := by
  have hnodup := settings.nodup_listed converter x
  rw [h, List.nodup_append] at hnodup
  obtain ⟨-, hafter, hbefore⟩ := hnodup
  have hnotBefore : shown ∉ before := fun hmem => hbefore shown hmem shown List.mem_cons_self rfl
  have hnotAfter : shown ∉ after := (List.nodup_cons.1 hafter).1
  have hdrop : (shown != shown) = false := by simp
  rw [listed_hide, h, List.filter_append, List.filter_cons, hdrop, filter_bne_eq_self hnotBefore,
    filter_bne_eq_self hnotAfter]
  rfl

/-! ## Dumps as joined texts -/

theorem sections_eq (settings : DumpSettings) (converter : TypeConverter) (x : Exchange) :
    settings.sections converter x =
      (settings.listed converter x).map (settings.text converter x) := by
  rw [sections, listed, funext (settings.sectionText?_eq converter x)]
  induction DumpSection.all with
  | nil => rfl
  | cons shown rest ih =>
      cases hshows : settings.shows shown with
      | false => simpa [hshows] using ih
      | true =>
          cases happlies : shown.applies converter x with
          | false => simpa [hshows, happlies] using ih
          | true => simpa [hshows, happlies] using ih

theorem dump_eq_join (settings : DumpSettings) (converter : TypeConverter) (x : Exchange) :
    settings.dump converter x =
      settings.layout.join ((settings.listed converter x).map (settings.text converter x)) := by
  rw [dump, frame_eq, separator_eq, sections_eq]
  rfl

end DumpSettings

/-! ## Taking a text out of joined texts -/

/-- What stands before a text that is to go, up to what goes with it. -/
def remaining (separator : String) (before after : List String) : String :=
  match after with
  | [] => separator.intercalate before
  | _ :: _ => separator.intercalate (before ++ [""])

/-- What goes with a text: the text and a separator beside it, if there are other texts. -/
def removed (separator text : String) : List String → List String → String
  | [], [] => text
  | _ :: _, [] => separator ++ text
  | _, _ :: _ => text ++ separator

theorem intercalate_remove (separator text : String) (before after : List String) :
    separator.intercalate (before ++ text :: after) =
        remaining separator before after ++ removed separator text before after ++
          separator.intercalate after ∧
      separator.intercalate (before ++ after) =
        remaining separator before after ++ separator.intercalate after := by
  cases after with
  | nil =>
      cases before with
      | nil => simp [remaining, removed]
      | cons first rest =>
          have hjoin := String.intercalate_append_of_ne_nil (s := separator)
            (List.cons_ne_nil first rest) (List.cons_ne_nil text [])
          rw [hjoin]
          simp [remaining, removed, String.append_assoc]
  | cons next others =>
      cases before with
      | nil => simp [remaining, removed]
      | cons first rest =>
          have hbefore := List.cons_ne_nil first rest
          have hjoin (l : List String) (h : l ≠ []) :=
            String.intercalate_append_of_ne_nil (s := separator) hbefore h
          rw [remaining, removed, hjoin _ (List.cons_ne_nil _ _), hjoin _ (List.cons_ne_nil _ _),
            hjoin _ (List.cons_ne_nil _ _)]
          simp [String.append_assoc]

/-! ## Changing a setting -/

namespace DumpSettings

theorem text_hide (settings : DumpSettings) (shown : DumpSection) (converter : TypeConverter)
    (x : Exchange) : (settings.hide shown).text converter x = settings.text converter x :=
  text_eq_of_layout_eq (settings.layout_hide shown) converter x

theorem dump_hide_of_notMem {settings : DumpSettings} {converter : TypeConverter} {x : Exchange}
    {shown : DumpSection} (h : shown ∉ settings.listed converter x) :
    (settings.hide shown).dump converter x = settings.dump converter x := by
  rw [dump_eq_join, dump_eq_join, layout_hide, text_hide, listed_hide, filter_bne_eq_self h]

theorem dump_hide_of_eq_append {settings : DumpSettings} {converter : TypeConverter} {x : Exchange}
    {shown : DumpSection} {before after : List DumpSection}
    (h : settings.listed converter x = before ++ shown :: after) :
    let layout := settings.layout
    let text := settings.text converter x
    let lead := layout.opening ++
      remaining layout.separator (before.map text) (after.map text)
    let trail := layout.separator.intercalate (after.map text) ++ layout.closing
    settings.dump converter x = lead ++
        removed layout.separator (text shown) (before.map text) (after.map text) ++ trail ∧
      (settings.hide shown).dump converter x = lead ++ trail := by
  intro layout text lead trail
  obtain ⟨hwhole, hrest⟩ := intercalate_remove layout.separator (text shown) (before.map text)
    (after.map text)
  constructor
  · rw [dump_eq_join, h, List.map_append, List.map_cons, DumpLayout.join, hwhole]
    simp only [lead, trail, layout, String.append_assoc]
  · rw [dump_eq_join, layout_hide, text_hide, listed_hide_of_eq_append h, List.map_append,
      DumpLayout.join, hrest]
    simp only [lead, trail, layout, String.append_assoc]

/-- But for the plain style, setting sections on lines changes the frame only. -/
theorem dump_multiline {settings : DumpSettings} (h : settings.style ≠ .plain) (multiline : Bool)
    (converter : TypeConverter) (x : Exchange) :
    ({ settings with multiline } : DumpSettings).dump converter x =
      ({ settings.layout with multiline } : DumpLayout).join
        ((settings.listed converter x).map (settings.text converter x)) := by
  have hlisted : ({ settings with multiline } : DumpSettings).listed converter x =
      settings.listed converter x := by
    rw [listed, listed]
    apply List.filter_congr
    intro shown _
    cases shown <;> rfl
  rw [dump_eq_join, hlisted, text_multiline h]
  rfl

/-- A section that is listed has one text. -/
theorem sectionText_iff_of_mem {settings : DumpSettings} {converter : TypeConverter} {x : Exchange}
    {shown : DumpSection} (h : shown ∈ settings.listed converter x) (s : String) :
    settings.layout.SectionText converter x shown s ↔ s = settings.text converter x shown := by
  rw [sectionText_iff, sectionText?_eq, if_pos (mem_listed.1 h).2, Option.some_inj]
  exact eq_comm

/-- A section that is listed has its label and what it says. -/
theorem exists_says_of_mem {settings : DumpSettings} {converter : TypeConverter} {x : Exchange}
    {shown : DumpSection} (h : shown ∈ settings.listed converter x) :
    ∃ content, shown.Says settings.maxChars.toInt converter x content ∧
      settings.text converter x shown = settings.layout.label shown.word ++ content := by
  have htext := (sectionText_iff_of_mem h _).2 rfl
  generalize settings.text converter x shown = s at htext ⊢
  obtain ⟨hsaid⟩ := htext
  exact ⟨_, hsaid, rfl⟩

end DumpSettings

/-- The limit of the body is for the body only. -/
theorem DumpLayout.sectionText_maxChars {layout : DumpLayout} {converter : TypeConverter}
    {x : Exchange} {shown : DumpSection} (h : shown ≠ .body) (maxChars : Int32) (s : String) :
    ({ layout with maxChars } : DumpLayout).SectionText converter x shown s ↔
      layout.SectionText converter x shown s := by
  have hsaid (limit other : Int) {content : String}
      (hcontent : shown.Says limit converter x content) :
      shown.Says other converter x content := by
    cases hcontent with
    | id => exact .id
    | headers hlisting => exact .headers hlisting
    | properties hsorted hlisting => exact .properties hsorted hlisting
    | bodyType => exact .bodyType
    | body _ => exact absurd rfl h
    | exception hfailure => exact .exception hfailure
    | stackTrace hfailure htrace htext hgap hlast =>
        exact .stackTrace hfailure htrace htext hgap hlast
  constructor
  · rintro ⟨hcontent⟩
    exact .labelled (hsaid _ _ hcontent)
  · rintro ⟨hcontent⟩
    exact .labelled (hsaid _ _ hcontent)

/-! ## Every dump -/

/-- A dump is the texts of its sections, in the order of all sections, in the frame of its layout.
A section is listed if its flag is on and, when it speaks of a failure, there is one.  Its text is
its label and what it says, which is fixed by the layout and the exchange, and the limit is for the
body only.  Turning a flag off takes out the text of its section and one separator beside it if
other sections are listed, and does nothing if the section was not listed.  But for the plain style,
the same texts stand on lines and on one line. -/
theorem dump_of_sections (settings : DumpSettings) (converter : TypeConverter) (x : Exchange) :
    let layout := settings.layout
    ∃ (listed : List DumpSection) (text : DumpSection → String),
      listed.Sublist
          [.id, .headers, .properties, .bodyType, .body, .exception, .stackTrace] ∧
        (∀ shown, shown ∈ listed ↔ shown.flag settings = true ∧
          (shown = .exception ∨ shown = .stackTrace → x.failure? converter ≠ none)) ∧
        (∀ shown ∈ listed, ∀ s, layout.SectionText converter x shown s ↔ s = text shown) ∧
        (∀ maxChars shown s, shown ≠ .body →
          (({ layout with maxChars } : DumpLayout).SectionText converter x shown s ↔
            layout.SectionText converter x shown s)) ∧
        settings.dump converter x = layout.join (listed.map text) ∧
        (∀ shown, shown ∉ listed →
          (settings.hide shown).dump converter x = settings.dump converter x) ∧
        (∀ before shown after, listed = before ++ shown :: after →
          let lead := layout.opening ++
            remaining layout.separator (before.map text) (after.map text)
          let trail := layout.separator.intercalate (after.map text) ++ layout.closing
          settings.dump converter x = lead ++
              removed layout.separator (text shown) (before.map text) (after.map text) ++ trail ∧
            (settings.hide shown).dump converter x = lead ++ trail) ∧
        (settings.style ≠ .plain → ∀ multiline,
          ({ settings with multiline } : DumpSettings).dump converter x =
            ({ layout with multiline } : DumpLayout).join (listed.map text)) := by
  intro layout
  refine ⟨settings.listed converter x, settings.text converter x, List.filter_sublist,
    fun shown => ?_, fun shown h => DumpSettings.sectionText_iff_of_mem h,
    fun maxChars shown s h => DumpLayout.sectionText_maxChars h maxChars s,
    settings.dump_eq_join converter x, fun shown h => DumpSettings.dump_hide_of_notMem h,
    fun before shown after h => DumpSettings.dump_hide_of_eq_append h,
    fun h multiline => DumpSettings.dump_multiline h multiline converter x⟩
  rw [DumpSettings.mem_listed]
  cases shown <;> simp [DumpSection.applies, Option.isSome_iff_ne_none]

end MessageExchange
