import MessageExchange.Proofs.Comparison.Order
import MessageExchange.Proofs.Dump.Sections
import MessageExchange.Proofs.Dump.Shown
import MessageExchange.Proofs.Text.Utf8

/-!
# Bytes as texts

Bytes convert to the text that they are the UTF-8 of, and to no other.  Bytes with
something malformed among them convert to none (`asText_bytes`).

Comparisons and dumps read a value through its text, so bytes that are a text cannot
be told from it, except by the section on the type of the body.  Bytes that are no
text match nothing, and a dump shows their type.
-/

namespace MessageExchange

open Text (Encodes Malformed)

/-! ## Conversion -/

namespace Value

variable {b : ByteArray} {s : String}

theorem asText_bytes_eq_ok_iff : (bytes b).asText = .ok s ↔ Encodes s.toList b.data.toList := by
  rw [Text.encodes_toList_iff, ← Text.fromUTF8?_eq_some_iff, asText]
  cases String.fromUTF8? b <;> simp

theorem asText_bytes_eq_error (h : ∀ s : String, ¬Encodes s.toList b.data.toList) :
    (bytes b).asText = .error (.noTypeConversion "Bytes" "String") := by
  have hnone : String.fromUTF8? b = none := by
    rw [Option.eq_none_iff_forall_ne_some]
    intro s hs
    exact h s (Text.encodes_toList_iff.2 (Text.fromUTF8?_eq_some_iff.1 hs))
  rw [asText, hnone]
  rfl

theorem toText_bytes (h : Encodes s.toList b.data.toList) :
    TypeConverter.standard.toText (bytes b) = some s := by
  show (bytes b).asText.toOption = some s
  rw [asText_bytes_eq_ok_iff.2 h]
  rfl

theorem toText_bytes_eq_none (h : ∀ s : String, ¬Encodes s.toList b.data.toList) :
    TypeConverter.standard.toText (bytes b) = none := by
  show (bytes b).asText.toOption = none
  rw [asText_bytes_eq_error h]
  rfl

theorem ReadsAs.refl (converter : TypeConverter) (v : Value) : v.ReadsAs converter v :=
  ⟨rfl, rfl, fun _ => rfl⟩

/-- Bytes that are a text read as the text. -/
theorem readsAs_text (h : Encodes s.toList b.data.toList) : (bytes b).ReadsAs .standard (text s) where
  isNull_eq := rfl
  toText_eq := toText_bytes h
  typeName_eq hnone := absurd (hnone.symm.trans (toText_bytes h)) nofun

/-- Bytes are no text if something malformed is in them after some characters, and only then. -/
theorem not_encodes_iff_malformed :
    (∀ s : String, ¬Encodes s.toList b.data.toList) ↔
      ∃ (start : String) (front rest : List UInt8),
        b.data.toList = front ++ rest ∧ Encodes start.toList front ∧ Malformed rest := by
  constructor
  · intro hnone
    have hchars (chars : List Char) : ¬Encodes chars b.data.toList := by
      have hchars := hnone (String.ofList chars)
      rwa [String.toList_ofList] at hchars
    obtain ⟨chars, front, rest, hbytes, hfront, hrest⟩ := Text.not_encodes_iff.1 hchars
    exact ⟨String.ofList chars, front, rest, hbytes, by rwa [String.toList_ofList], hrest⟩
  · rintro ⟨start, front, rest, hbytes, hfront, hrest⟩ s
    exact Text.not_encodes_iff.2 ⟨start.toList, front, rest, hbytes, hfront, hrest⟩ s.toList

end Value

/-! ## Comparisons -/

/-- Comparisons read a present value through its text. -/
theorem compareTexts_congr {converter : TypeConverter} {v w : Value} (hv : v ≠ .null)
    (hw : w ≠ .null) (htext : converter.toText v = converter.toText w)
    (test : List Char → List Char → Bool) (other : Option Value) :
    compareTexts converter test (some v) other = compareTexts converter test (some w) other ∧
      compareTexts converter test other (some v) = compareTexts converter test other (some w) := by
  have hleft : present? (some v) = some v := present?_eq_some_iff.2 ⟨rfl, hv⟩
  have hright : present? (some w) = some w := present?_eq_some_iff.2 ⟨rfl, hw⟩
  simp only [compareTexts, hleft, hright]
  cases present? other with
  | none => exact ⟨rfl, rfl⟩
  | some u => simp only [htext, and_self]

/-! ## Dumps -/

namespace DumpSettings

/-- Bodies that read the same differ in the section on their type only. -/
theorem content?_setBody (settings : DumpSettings) {converter : TypeConverter} {v w : Value}
    (h : v.ReadsAs converter w) (x : Exchange) (shown : DumpSection) :
    settings.content? converter (x.setBody v) shown =
      if shown = .bodyType then some v.typeName
      else settings.content? converter (x.setBody w) shown := by
  cases shown with
  | body => exact congrArg some (settings.bodyText_eq_of_readsAs h)
  | _ => rfl

theorem dump_setBody {settings : DumpSettings} (htype : settings.showBodyType = false)
    {converter : TypeConverter} {v w : Value} (h : v.ReadsAs converter w) (x : Exchange) :
    settings.dump converter (x.setBody v) = settings.dump converter (x.setBody w) := by
  apply dump_congr
  intro shown hshows
  rw [content?_setBody settings h]
  apply if_neg
  rintro rfl
  rw [shows, htype] at hshows
  cases hshows

/-- Under every setting, dumps of bodies that read the same differ in the name of the type only. -/
theorem dump_setBody_eq_join (settings : DumpSettings) {converter : TypeConverter} {v w : Value}
    (h : v.ReadsAs converter w) (x : Exchange) :
    settings.dump converter (x.setBody v) =
      settings.layout.join ((settings.listed converter (x.setBody w)).map fun shown =>
        if shown = .bodyType then settings.layout.label "BodyType" ++ v.typeName
        else settings.text converter (x.setBody w) shown) := by
  have hlisted : settings.listed converter (x.setBody v) =
      settings.listed converter (x.setBody w) := by
    apply List.filter_congr
    intro shown _
    cases shown <;> rfl
  rw [dump_eq_join, hlisted]
  refine congrArg settings.layout.join (List.map_congr_left fun shown _ => ?_)
  rw [text, sectionText?, content?_setBody settings h]
  split
  · next htype =>
    subst htype
    exact congrArg (· ++ v.typeName) (settings.label_eq "BodyType")
  · rfl

/-- A body without a text is shown by its type. -/
theorem text_body_of_toText_eq_none (settings : DumpSettings) {converter : TypeConverter}
    {v : Value} (hnull : v ≠ .null) (hnone : converter.toText v = none) (x : Exchange) :
    settings.text converter (x.setBody v) .body =
      settings.layout.label "Body" ++ ("[Body is instance of " ++ v.typeName ++ "]") := by
  have hbody := settings.bodyText_of_toText_eq_none hnull hnone
  rw [← label_eq, ← hbody]
  rfl

end DumpSettings

namespace Value

/-- Bytes convert to a text if they are its UTF-8.  They are no text if something malformed is in
them after some characters, and then no conversion exists.  So no two sequences of bytes have one
text.  With the standard converter, bytes that are a text compare as the text does, and a dump says
the same of them but for their type, so it is the same dump where the type is hidden, and differs in
the name of the type where it is shown.  Bytes that are no text are shown by their type, under any
limit, and no comparison with them holds. -/
theorem asText_bytes :
    (∀ (b : ByteArray) (s : String),
      (bytes b).asText = .ok s ↔ Encodes s.toList b.data.toList) ∧
    (∀ b : ByteArray, (∀ s : String, ¬Encodes s.toList b.data.toList) →
      (bytes b).asText = .error (.noTypeConversion "Bytes" "String")) ∧
    (∀ b : ByteArray, (∀ s : String, ¬Encodes s.toList b.data.toList) ↔
      ∃ (start : String) (front rest : List UInt8),
        b.data.toList = front ++ rest ∧ Encodes start.toList front ∧ Malformed rest) ∧
    (∀ (b b' : ByteArray) (s : String),
      (bytes b).asText = .ok s → (bytes b').asText = .ok s → b = b') ∧
    (∀ (b : ByteArray) (s : String), Encodes s.toList b.data.toList →
      (∀ other,
        startsWith .standard (some (bytes b)) other = startsWith .standard (some (text s)) other ∧
        startsWith .standard other (some (bytes b)) = startsWith .standard other (some (text s)) ∧
        endsWith .standard (some (bytes b)) other = endsWith .standard (some (text s)) other ∧
        endsWith .standard other (some (bytes b)) = endsWith .standard other (some (text s))) ∧
      ∀ (settings : DumpSettings) (x : Exchange),
        (∀ shown, settings.content? .standard (x.setBody (bytes b)) shown =
          if shown = .bodyType then some "Bytes"
          else settings.content? .standard (x.setBody (text s)) shown) ∧
        (settings.showBodyType = false → settings.dump .standard (x.setBody (bytes b)) =
          settings.dump .standard (x.setBody (text s))) ∧
        ∃ (listed : List DumpSection) (said : DumpSection → String),
          listed.Sublist
              [.id, .headers, .properties, .bodyType, .body, .exception, .stackTrace] ∧
            (.bodyType ∈ listed ↔ settings.showBodyType = true) ∧
            let shows (typeName : String) := settings.layout.join (listed.map fun shown =>
              if shown = .bodyType then settings.layout.label "BodyType" ++ typeName
              else said shown)
            settings.dump .standard (x.setBody (bytes b)) = shows "Bytes" ∧
              settings.dump .standard (x.setBody (text s)) = shows "String") ∧
    ∀ b : ByteArray, (∀ s : String, ¬Encodes s.toList b.data.toList) →
      (∀ other,
        startsWith .standard (some (bytes b)) other = false ∧
        startsWith .standard other (some (bytes b)) = false ∧
        endsWith .standard (some (bytes b)) other = false ∧
        endsWith .standard other (some (bytes b)) = false) ∧
      ∀ (settings : DumpSettings) (x : Exchange),
        settings.content? .standard (x.setBody (bytes b)) .body =
            some "[Body is instance of Bytes]" ∧
          ∃ (listed : List DumpSection) (said : DumpSection → String),
            listed.Sublist
                [.id, .headers, .properties, .bodyType, .body, .exception, .stackTrace] ∧
              (.body ∈ listed ↔ settings.showBody = true) ∧
              said .body = settings.layout.label "Body" ++ "[Body is instance of Bytes]" ∧
              settings.dump .standard (x.setBody (bytes b)) =
                settings.layout.join (listed.map said) := by
  refine ⟨fun _ _ => asText_bytes_eq_ok_iff, fun _ => asText_bytes_eq_error,
    fun _ => not_encodes_iff_malformed, ?_, ?_, ?_⟩
  · intro b b' s hb hb'
    rw [asText_bytes_eq_ok_iff, Text.encodes_toList_iff] at hb hb'
    exact hb.trans hb'.symm
  · intro b s hencodes
    have hreads := readsAs_text hencodes
    have hcompare (test : List Char → List Char → Bool) (other : Option Value) :=
      compareTexts_congr (v := bytes b) (w := text s) nofun nofun hreads.toText_eq test other
    refine ⟨fun other => ⟨(hcompare _ other).1, (hcompare _ other).2, (hcompare _ other).1,
      (hcompare _ other).2⟩, fun settings x => ⟨settings.content?_setBody hreads x,
        fun htype => DumpSettings.dump_setBody htype hreads x, ?_⟩⟩
    have hshows : .bodyType ∈ settings.listed .standard (x.setBody (text s)) ↔
        settings.showBodyType = true := DumpSettings.mem_listed.trans (and_iff_left rfl)
    exact ⟨_, _, List.filter_sublist, hshows, settings.dump_setBody_eq_join hreads x,
      settings.dump_setBody_eq_join (ReadsAs.refl .standard (text s)) x⟩
  · intro b hnone
    have htext := toText_bytes_eq_none hnone
    have hnull : bytes b ≠ .null := nofun
    refine ⟨fun other => ?_, fun settings x => ?_⟩
    · obtain ⟨hstart, hstart'⟩ :=
        (textOrder_startsWith .standard).unrelated (bytes b) hnull htext other
      obtain ⟨hend, hend'⟩ := (textOrder_endsWith .standard).unrelated (bytes b) hnull htext other
      exact ⟨hstart, hstart', hend, hend'⟩
    · have hshows : .body ∈ settings.listed .standard (x.setBody (bytes b)) ↔
          settings.showBody = true := DumpSettings.mem_listed.trans (and_iff_left rfl)
      exact ⟨congrArg some (settings.bodyText_of_toText_eq_none hnull htext), _, _,
        List.filter_sublist, hshows, settings.text_body_of_toText_eq_none hnull htext x,
        settings.dump_eq_join _ _⟩

/-- A sign of three bytes, and a letter before the sign without its last byte. -/
theorem asText_bytes_of_euro :
    let euro : ByteArray := ⟨#[0xE2, 0x82, 0xAC]⟩
    let cut : ByteArray := ⟨#[0x61, 0xE2, 0x82]⟩
    let settings : DumpSettings := { showBodyType := false, maxChars := 1 }
    let x := Exchange.new ⟨0⟩ .epoch
    (Encodes "€".toList euro.data.toList ∧ (bytes euro).asText = .ok "€" ∧
      endsWith .standard (some (text "5€")) (some (bytes euro)) = true ∧
      settings.dump .standard (x.setBody (bytes euro)) =
        settings.dump .standard (x.setBody (text "€"))) ∧
    (∀ s : String, ¬Encodes s.toList cut.data.toList) ∧
      (bytes cut).asText = .error (.noTypeConversion "Bytes" "String") ∧
      settings.content? .standard (x.setBody (bytes cut)) .body =
        some "[Body is instance of Bytes]" ∧
      startsWith .standard (some (bytes cut)) (some (text "a")) = false := by
  intro euro cut settings x
  obtain ⟨hok, herror, hnone, -, hreads, hshown⟩ := asText_bytes
  have heuro : Encodes "€".toList euro.data.toList := Text.encodes_toList_iff.2 (by decide)
  have hletter : Encodes "a".toList [0x61] := Text.encodes_iff.2 (by decide)
  have hlead : Text.Leads 0xE2 2 2 := .two (by decide) (by decide)
  have hmalformed : Malformed (0xE2 :: ([0x82] ++ [])) :=
    .cut hlead (List.forall_mem_singleton.2 (by decide)) (by decide) nofun
  have hcut : ∀ s : String, ¬Encodes s.toList cut.data.toList :=
    (hnone cut).2 ⟨"a", [0x61], [0xE2, 0x82], rfl, hletter, hmalformed⟩
  obtain ⟨hcompare, hdump⟩ := hreads euro "€" heuro
  refine ⟨⟨heuro, (hok euro "€").2 heuro, ?_, (hdump settings x).2.1 rfl⟩, hcut, herror cut hcut,
    ((hshown cut hcut).2 settings x).1, ((hshown cut hcut).1 _).1⟩
  rw [(hcompare _).2.2.2]
  decide

end Value

end MessageExchange
