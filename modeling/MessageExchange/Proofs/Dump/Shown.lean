import MessageExchange.Dump.Basic
import MessageExchange.Proofs.Dump.Properties
import MessageExchange.Proofs.Failure.StackTrace
import Mathlib.Data.List.Basic

/-!
# What a dump shows

A dump shows some parts of an exchange and hides the others.  `Alike` says that
two exchanges agree on every part that the settings show.  Each section reads
only the parts that are its own, so what the shown sections say is equal
(`content?_eq_of_alike`), and then so are the dumps (`dump_reveals_only_shown`).

The sections on a failure are the ones that read more than one part.  They speak
of the failure that an exchange itself carries, and look among the properties only
if there is none (`failure?_congr`).  A body is read through its type, through
being null and through its text, and of a text that is cut only the start and the
length are shown (`clip_congr`).
-/

namespace MessageExchange

/-! ## Parts that are read -/

/-- Two bodies that read the same: both are null or neither is, and they have the same text, or no
text and the same type. -/
structure Value.ReadsAs (converter : TypeConverter) (a b : Value) : Prop where
  isNull_eq : a.isNull = b.isNull
  toText_eq : converter.toText a = converter.toText b
  typeName_eq : converter.toText a = none → a.typeName = b.typeName

/-- Two values of one type.  No type but that of null has null among its values. -/
structure Value.SameType (a b : Value) : Prop where
  isNull_eq : a.isNull = b.isNull
  typeName_eq : a.typeName = b.typeName

namespace DumpSettings

/-- Two exchanges that agree on every part that the settings show. -/
structure Alike (settings : DumpSettings) (converter : TypeConverter) (x y : Exchange) : Prop where
  id_eq : settings.showId = true → x.id = y.id
  headers_eq : settings.showHeaders = true →
    x.message.headers.toList = y.message.headers.toList
  property_eq : settings.showProperties = true → ∀ key, x.property? key = y.property? key
  typeName_eq : settings.showBodyType = true →
    x.message.body.typeName = y.message.body.typeName
  body_readsAs : settings.showBody = true → x.message.body.ReadsAs converter y.message.body
  failure_eq : settings.showException = true ∨ settings.showStackTrace = true →
    x.failure? converter = y.failure? converter

/-! ## What the sections say -/

/-- Dumps are equal if what the shown sections say is. -/
theorem dump_congr {settings : DumpSettings} {converter : TypeConverter} {x y : Exchange}
    (h : ∀ shown, settings.shows shown = true →
      settings.content? converter x shown = settings.content? converter y shown) :
    settings.dump converter x = settings.dump converter y := by
  have hsections : settings.sections converter x = settings.sections converter y := by
    apply List.filterMap_congr
    intro shown hmem
    have hshows : settings.shows shown = true := (List.mem_filter.1 hmem).2
    rw [sectionText?, sectionText?, h shown hshows]
  rw [dump, dump, hsections]

/-- The body is shown by its text, or by its type if it has no text. -/
theorem bodyText_eq_of_readsAs (settings : DumpSettings) {converter : TypeConverter} {a b : Value}
    (h : a.ReadsAs converter b) :
    settings.bodyText converter a = settings.bodyText converter b := by
  rw [bodyText, bodyText, ← h.isNull_eq, ← h.toText_eq]
  cases htext : converter.toText a with
  | none => rw [h.typeName_eq htext]
  | some text => rfl

/-- A section about the failure says the same if the failure is the same. -/
theorem content?_eq_of_failure_eq (settings : DumpSettings) {converter : TypeConverter}
    {x y : Exchange} (h : x.failure? converter = y.failure? converter) {shown : DumpSection}
    (hshown : shown = .exception ∨ shown = .stackTrace) :
    settings.content? converter x shown = settings.content? converter y shown := by
  rcases hshown with rfl | rfl
  · rw [content?, content?, h]
  · rw [content?, content?, Exchange.failureStackTrace?_eq, Exchange.failureStackTrace?_eq, h]

/-- Each section reads only the parts that are its own. -/
theorem content?_eq_of_alike {settings : DumpSettings} {converter : TypeConverter} {x y : Exchange}
    (h : settings.Alike converter x y) {shown : DumpSection}
    (hshows : settings.shows shown = true) :
    settings.content? converter x shown = settings.content? converter y shown := by
  cases shown with
  | id => rw [content?, content?, h.id_eq hshows]
  | headers => rw [content?, content?, h.headers_eq hshows]
  | properties =>
      rw [content?, content?, Dictionary.ofList_toList_congr (h.property_eq hshows)]
  | bodyType => rw [content?, content?, h.typeName_eq hshows]
  | body => rw [content?, content?, settings.bodyText_eq_of_readsAs (h.body_readsAs hshows)]
  | exception => exact settings.content?_eq_of_failure_eq (h.failure_eq (.inl hshows)) (.inl rfl)
  | stackTrace => exact settings.content?_eq_of_failure_eq (h.failure_eq (.inr hshows)) (.inr rfl)

end DumpSettings

/-! ## Parts that are hidden -/

/-- The reserved property counts only if the exchange itself carries no failure. -/
theorem Exchange.failure?_congr {converter : TypeConverter} {x y : Exchange}
    (hexception : x.exception = y.exception)
    (hcaught : x.exception = none →
      x.property? exceptionCaughtKey = y.property? exceptionCaughtKey) :
    x.failure? converter = y.failure? converter := by
  rw [failure?, failure?, ← hexception]
  cases hown : x.exception with
  | none => rw [hcaught hown]
  | some failure => rfl

namespace DumpSettings

/-- Of a text that is cut no more is shown than its start and its length. -/
theorem clip_congr {limit : Nat} {s t : String} (hlength : s.length = t.length)
    (htake : s.toList.take limit = t.toList.take limit) : clip limit s = clip limit t := by
  rw [← String.length_toList, ← String.length_toList] at hlength
  rw [clip, clip, hlength, htake]
  split
  · next hle =>
    -- A text that is short enough is its own start.
    rw [List.take_of_length_le (hlength ▸ hle), List.take_of_length_le hle] at htake
    exact String.toList_inj.1 htake
  · rfl

theorem bodyText_eq_of_take_eq {settings : DumpSettings} (hlimit : 0 < settings.maxChars.toInt)
    {converter : TypeConverter} {a b : Value} (hnull : a.isNull = b.isNull) {s t : String}
    (hs : converter.toText a = some s) (ht : converter.toText b = some t)
    (hlength : s.length = t.length)
    (htake : s.toList.take settings.maxChars.toInt.toNat =
      t.toList.take settings.maxChars.toInt.toNat) :
    settings.bodyText converter a = settings.bodyText converter b := by
  have hclip := clip_congr hlength htake
  simp only [bodyText, hnull, hs, ht, if_pos hlimit, hclip]

/-- Exchanges that differ in their properties only have equal dumps if the properties are hidden
and no failure that is shown is looked up among them. -/
theorem dump_congr_properties {settings : DumpSettings} (hhidden : settings.showProperties = false)
    (converter : TypeConverter) {x : Exchange} {properties : Dictionary Value}
    (h : settings.showException = true ∨ settings.showStackTrace = true → x.exception = none →
      x.property? exceptionCaughtKey = properties.find? exceptionCaughtKey) :
    settings.dump converter x = settings.dump converter { x with properties } := by
  have hfailure (hshown : settings.showException = true ∨ settings.showStackTrace = true) :
      x.failure? converter = ({ x with properties } : Exchange).failure? converter :=
    Exchange.failure?_congr rfl (h hshown)
  apply dump_congr
  intro shown hshows
  cases shown with
  | properties =>
      rw [shows, hhidden] at hshows
      exact absurd hshows Bool.false_ne_true
  | exception => exact settings.content?_eq_of_failure_eq (hfailure (.inl hshows)) (.inl rfl)
  | stackTrace => exact settings.content?_eq_of_failure_eq (hfailure (.inr hshows)) (.inr rfl)
  | _ => rfl

theorem dump_setCreated (settings : DumpSettings) (converter : TypeConverter) (x : Exchange)
    (created : Time.Instant) (chronology : Time.Chronology) :
    settings.dump converter (x.setCreated created chronology) = settings.dump converter x := by
  apply dump_congr
  intro shown _
  cases shown <;> rfl

theorem dump_congr_body {settings : DumpSettings} {converter : TypeConverter} (x : Exchange)
    {a b : Value} (htype : a.typeName = b.typeName)
    (hbody : settings.bodyText converter a = settings.bodyText converter b) :
    settings.dump converter (x.setBody a) = settings.dump converter (x.setBody b) := by
  apply dump_congr
  intro shown _
  cases shown with
  | bodyType => exact congrArg some htype
  | body => exact congrArg some hbody
  | _ => rfl

end DumpSettings

/-! ## Every dump -/

/-- A dump depends on nothing but what it shows.  Exchanges that agree on all that is shown have
equal dumps.  So the time of creation never matters.  Properties that are hidden matter through the
reserved one alone, if a section about the failure is shown and the exchange itself carries none.
Of a body whose text is cut only the type, the start of the text and its length matter. -/
theorem dump_reveals_only_shown (settings : DumpSettings) (converter : TypeConverter) :
    (∀ x y, settings.Alike converter x y →
        settings.dump converter x = settings.dump converter y) ∧
      (∀ x created chronology, settings.dump converter (x.setCreated created chronology) =
        settings.dump converter x) ∧
      (settings.showProperties = false → ∀ (x : Exchange) (properties : Dictionary Value),
        (settings.showException = true ∨ settings.showStackTrace = true → x.exception = none →
          x.property? "RelayExceptionCaught" = properties.find? "RelayExceptionCaught") →
        settings.dump converter x = settings.dump converter { x with properties }) ∧
      (0 < settings.maxChars.toInt → ∀ (x : Exchange) (a b : Value) (s t : String),
        a.SameType b → converter.toText a = some s → converter.toText b = some t →
        s.length = t.length →
        s.toList.take settings.maxChars.toInt.toNat =
          t.toList.take settings.maxChars.toInt.toNat →
        settings.dump converter (x.setBody a) = settings.dump converter (x.setBody b)) := by
  refine ⟨?_, settings.dump_setCreated converter, ?_, ?_⟩
  · intro x y h
    apply DumpSettings.dump_congr
    intro shown hshows
    exact DumpSettings.content?_eq_of_alike h hshows
  · intro hhidden x properties h
    exact DumpSettings.dump_congr_properties hhidden converter h
  · intro hlimit x a b s t htype hs ht hlength htake
    exact DumpSettings.dump_congr_body x htype.typeName_eq
      (DumpSettings.bodyText_eq_of_take_eq hlimit htype.isNull_eq hs ht hlength htake)

/-- Identifiers, headers and properties that are hidden, and bodies that are cut where they begin to
differ. -/
theorem dump_reveals_only_shown_of_defaults :
    let settings : DumpSettings := { maxChars := 3 }
    let converter := TypeConverter.standard
    let x := Exchange.new ⟨0⟩ .epoch
    let y := ((Exchange.new ⟨1⟩ .epoch).setHeader "h" .null).setProperty "p" (.int 1)
    let a := Value.text "abcdef"
    let b := Value.text "abcxyz"
    (settings.Alike converter x y ∧ settings.dump converter x = settings.dump converter y) ∧
      (0 < settings.maxChars.toInt ∧ a.SameType b ∧ converter.toText a = some "abcdef" ∧
        converter.toText b = some "abcxyz" ∧ "abcdef".length = "abcxyz".length ∧
        "abcdef".toList.take 3 = "abcxyz".toList.take 3) ∧
      settings.dump converter (x.setBody a) = settings.dump converter (x.setBody b) := by
  intro settings converter x y a b
  obtain ⟨hdump, -, -, hbody⟩ := dump_reveals_only_shown settings converter
  have halike : settings.Alike converter x y :=
    { id_eq := fun h => nomatch h
      headers_eq := fun h => nomatch h
      property_eq := fun h => nomatch h
      typeName_eq := fun _ => rfl
      body_readsAs := fun _ => ⟨rfl, rfl, fun _ => rfl⟩
      failure_eq := fun _ => rfl }
  have hlimit : 0 < settings.maxChars.toInt := by decide
  have htype : a.SameType b := ⟨rfl, rfl⟩
  have hlength : "abcdef".length = "abcxyz".length := by decide
  have htake : "abcdef".toList.take 3 = "abcxyz".toList.take 3 := by decide
  exact ⟨⟨halike, hdump x y halike⟩, ⟨hlimit, htype, rfl, rfl, hlength, htake⟩,
    hbody hlimit x a b _ _ htype rfl rfl hlength htake⟩

end MessageExchange
