import MessageExchange.Proofs.Options.Bytes
import MessageExchange.Proofs.Options.Decoding

/-!
# Options from a file

A decoder reads options from a file by its bytes and from a text by its characters.
If it reads what the JSON grammar derives from either, the two agree: a file gives
the options of the text whose UTF-8 it holds, and is refused if it holds no such text
(`ofFile_agrees`).  There is no third outcome, and a file that is refused gives no
options at all.
-/

namespace MessageExchange.Options

open Text (Encodes Malformed)

variable {content : ByteArray} {options : Options} {decoder : Json.Decoder} (path : String)

/-! ## The two ways to read -/

theorem ofJson_eq_ok_iff {text : String} :
    ofJson text decoder = .ok options ↔
      ∃ members, decoder.ofText text = .ok members ∧ KeyMap.ofList members = options := by
  rw [ofJson]
  cases decoder.ofText text <;> simp

theorem ofFile_bytes_eq_ok_iff_decoded :
    ofFile path (.bytes content) decoder = .ok options ↔
      ∃ members, decoder.ofBytes content = .ok members ∧ KeyMap.ofList members = options := by
  rw [ofFile]
  cases decoder.ofBytes content <;> simp

/-- Bytes give options, or they are refused as an invalid configuration. -/
theorem ofFile_bytes_eq_error
    (h : ∀ options, ofFile path (.bytes content) decoder ≠ .ok options) :
    ∃ message, ofFile path (.bytes content) decoder = .error (.invalidConfiguration message) := by
  rw [ofFile] at h ⊢
  cases hread : decoder.ofBytes content with
  | ok members =>
      rw [hread] at h
      exact absurd rfl (h _)
  | error reason => exact ⟨_, rfl⟩

section
variable (htext : decoder.ReadsText) (hbytes : decoder.ReadsBytes)
include htext hbytes

theorem ofFile_bytes_eq_ok_iff :
    ofFile path (.bytes content) decoder = .ok options ↔
      ∃ text : String, Encodes text.toList content.data.toList ∧
        ofJson text decoder = .ok options := by
  simp only [ofFile_bytes_eq_ok_iff_decoded, ofJson_eq_ok_iff, hbytes.eq_ok_iff, htext.eq_ok_iff]
  constructor
  · rintro ⟨members, ⟨text, hencodes, hmembers⟩, hoptions⟩
    exact ⟨text, hencodes, members, hmembers, hoptions⟩
  · rintro ⟨text, hencodes, members, hmembers, hoptions⟩
    exact ⟨members, ⟨text, hencodes, hmembers⟩, hoptions⟩

/-! ## Files -/

/-- With a decoder that reads JSON from texts and from bytes, a file gives options exactly if its
bytes are the UTF-8 of a text that gives them, so on the bytes of a text both readers accept or
refuse alike.  All else is refused as an invalid configuration: bytes that are no text because
something malformed is in them anywhere, a text that writes no object of strings, a byte order mark,
a file that is missing or cannot be read. -/
theorem ofFile_agrees :
    (∀ (content : ByteArray) (options : Options),
      ofFile path (.bytes content) decoder = .ok options ↔
        ∃ text : String, Encodes text.toList content.data.toList ∧
          ofJson text decoder = .ok options) ∧
    (∀ text : String,
      (ofFile path (.bytes text.toByteArray) decoder).toOption =
        (ofJson text decoder).toOption) ∧
    (∀ file, (∃ (content : ByteArray) (text : String) (options : Options),
          file = .bytes content ∧ Encodes text.toList content.data.toList ∧
            ofJson text decoder = .ok options ∧ ofFile path file decoder = .ok options) ∨
        ∃ message, ofFile path file decoder = .error (.invalidConfiguration message)) ∧
    (∀ (content : ByteArray) (start : List Char) (front rest : List UInt8),
      content.data.toList = front ++ rest → Encodes start front → Malformed rest →
        ∃ message, ofFile path (.bytes content) decoder = .error (.invalidConfiguration message)) ∧
    (∀ (content : ByteArray) (text : String), Encodes text.toList content.data.toList →
      (¬∃ members, Json.Written members text.toList) →
        ∃ message, ofFile path (.bytes content) decoder = .error (.invalidConfiguration message)) ∧
    (∀ (content : ByteArray) (rest : List UInt8),
      content.data.toList = 0xEF :: 0xBB :: 0xBF :: rest →
        ∃ message, ofFile path (.bytes content) decoder = .error (.invalidConfiguration message)) ∧
    (∀ reason, ∃ message,
      ofFile path (.missing reason) decoder = .error (.invalidConfiguration message)) ∧
    ∀ reason, ∃ message,
      ofFile path (.unreadable reason) decoder = .error (.invalidConfiguration message) := by
  have hok {content : ByteArray} {options : Options} :=
    @ofFile_bytes_eq_ok_iff content options decoder path htext hbytes
  refine ⟨fun _ _ => hok, fun text => ?_, fun file => ?_, ?_, ?_, ?_, fun _ => ⟨_, rfl⟩,
    fun _ => ⟨_, rfl⟩⟩
  · apply Option.ext
    intro options
    have hsame {s : String} (hs : Encodes s.toList text.toByteArray.data.toList) : s = text :=
      (String.toByteArray_inj.1 (Text.encodes_toList_iff.1 hs)).symm
    have hsome {result : Except ExchangeError Options} :
        result.toOption = some options ↔ result = .ok options := by
      cases result <;> simp [Except.toOption]
    rw [hsome, hsome, hok]
    constructor
    · rintro ⟨s, hs, hread⟩
      rwa [← hsame hs]
    · intro hread
      exact ⟨text, Text.encodes_toList_iff.2 rfl, hread⟩
  · cases file with
    | missing reason => exact .inr ⟨_, rfl⟩
    | unreadable reason => exact .inr ⟨_, rfl⟩
    | bytes content =>
        by_cases h : ∃ options, ofFile path (.bytes content) decoder = .ok options
        · obtain ⟨options, hread⟩ := h
          obtain ⟨text, hencodes, hjson⟩ := hok.1 hread
          exact .inl ⟨content, text, options, rfl, hencodes, hjson, hread⟩
        · exact .inr (ofFile_bytes_eq_error path (not_exists.1 h))
  · intro content start front rest hcontent hfront hrest
    refine ofFile_bytes_eq_error path fun options hread => ?_
    obtain ⟨text, hencodes, -⟩ := hok.1 hread
    rw [hcontent] at hencodes
    exact hrest.not_encodes hfront hencodes
  · intro content text hencodes hnone
    refine ofFile_bytes_eq_error path fun options hread => ?_
    obtain ⟨s, hs, hread⟩ := hok.1 hread
    rw [Text.encodes_toList_iff] at hencodes hs
    obtain rfl : s = text := String.toByteArray_inj.1 (hs.symm.trans hencodes)
    obtain ⟨message, hmessage⟩ := ofJson_of_not_written htext hnone
    cases hmessage.symm.trans hread
  · intro content rest hcontent
    refine ofFile_bytes_eq_error path fun options hread => ?_
    obtain ⟨members, hread, -⟩ := (ofFile_bytes_eq_ok_iff_decoded path).1 hread
    obtain ⟨text, hencodes, hwritten⟩ := hbytes.eq_ok_iff.1 hread
    obtain ⟨c, chars, htext, hascii⟩ := hwritten.exists_head
    rw [htext, hcontent] at hencodes
    rw [← hencodes.head_of_ascii hascii] at hascii
    exact absurd hascii (by decide)

end

/-- An object with the key `é`, whose bytes are cut in the middle of the key. -/
theorem ofFile_agrees_of_cut :
    let whole : ByteArray := ⟨#[0x7B, 0x22, 0xC3, 0xA9, 0x22, 0x3A, 0x22, 0x22, 0x7D]⟩
    let cut : ByteArray := ⟨#[0x7B, 0x22, 0xC3]⟩
    let text := "\x7b\"é\":\"\"\x7d"
    (Encodes text.toList whole.data.toList ∧ ofJson text = .ok (.ofList [("é", "")]) ∧
      ofFile "options.json" (.bytes whole) = .ok (.ofList [("é", "")])) ∧
    (cut.data.toList = [0x7B, 0x22] ++ [0xC3] ∧ Encodes "\x7b\"".toList [0x7B, 0x22] ∧
      Malformed [0xC3] ∧ ∃ message, ofFile "options.json" (.bytes cut) =
        .error (.invalidConfiguration message)) := by
  intro whole cut text
  obtain ⟨hok, -, -, hmalformed, -⟩ :=
    ofFile_agrees "options.json" Json.Decoder.readsText_standard Json.Decoder.readsBytes_standard
  have hwhole : Encodes text.toList whole.data.toList := Text.encodes_toList_iff.2 (by decide)
  have hmembers : Json.object? text = some [("é", "")] := by decide +kernel
  have hread : ofJson text = .ok (.ofList [("é", "")]) :=
    ofJson_eq_ok_iff.2 ⟨_, Json.Decoder.elim_eq_ok_iff.2 hmembers, rfl⟩
  have hstart : Encodes "\x7b\"".toList [0x7B, 0x22] := Text.encodes_iff.2 (by decide)
  have hlead : Text.Leads 0xC3 3 1 := .one (by decide) (by decide)
  have hcut : Malformed (0xC3 :: ([] ++ [])) :=
    .cut hlead (List.forall_mem_nil _) (by decide) (by simp)
  exact ⟨⟨hwhole, hread, (hok whole _).2 ⟨text, hwhole, hread⟩⟩, rfl, hstart, hcut,
    hmalformed cut _ _ _ rfl hstart hcut⟩

end MessageExchange.Options
