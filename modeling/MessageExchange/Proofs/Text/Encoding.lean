/-!
# Texts and their bytes

The bytes of a text are its characters in UTF-8.  Where the bytes of a text fall
apart into two, and one part is the bytes of a text again, the text itself falls
apart there (`exists_append_of_isValidUTF8`).  So a text starts or ends with another
exactly if its bytes do: no character of the one is cut through.
-/

namespace MessageExchange.Text

/-- A text falls apart where its bytes do, if the bytes on one side are well-formed. -/
theorem exists_append_of_isValidUTF8 {s : String} {first second : ByteArray}
    (h : s.toByteArray = first ++ second) (hvalid : first.IsValidUTF8 ∨ second.IsValidUTF8) :
    ∃ front back : String,
      s = front ++ back ∧ front.toByteArray = first ∧ back.toByteArray = second := by
  have hsize : s.utf8ByteSize = first.size + second.size := by
    rw [← String.size_toByteArray, h, ByteArray.size_append]
  have hle : (⟨first.size⟩ : String.Pos.Raw) ≤ s.rawEndPos := by
    rw [String.Pos.Raw.le_iff]
    show first.size ≤ s.utf8ByteSize
    omega
  have hpos : String.Pos.Raw.IsValid s ⟨first.size⟩ := by
    cases hvalid with
    | inl hfirst =>
        refine String.Pos.Raw.isValid_iff_isValidUTF8_extract_zero.2 ⟨hle, ?_⟩
        rwa [h, ByteArray.extract_append_eq_left rfl]
    | inr hsecond =>
        refine String.Pos.Raw.isValid_iff_isValidUTF8_extract_utf8ByteSize.2 ⟨hle, ?_⟩
        rwa [h, ByteArray.extract_append_eq_right rfl hsize]
  obtain ⟨front, back, hs, hend⟩ := String.Pos.Raw.isValid_iff_exists_append.1 hpos
  have hfront : front.toByteArray.size = first.size := by
    rw [String.size_toByteArray]
    exact (congrArg String.Pos.Raw.byteIdx hend).symm
  rw [hs, String.toByteArray_append,
    ByteArray.append_eq_append_iff_of_size_eq_left hfront] at h
  exact ⟨front, back, hs, h⟩

/-- A text starts with another exactly if its bytes do. -/
theorem exists_append_bytes_iff {s start : String} :
    (∃ rest : ByteArray, s.toByteArray = start.toByteArray ++ rest) ↔
      ∃ rest : String, s = start ++ rest := by
  constructor
  · rintro ⟨rest, h⟩
    obtain ⟨front, back, hs, hfront, -⟩ :=
      exists_append_of_isValidUTF8 h (.inl start.isValidUTF8)
    exact ⟨back, String.toByteArray_inj.1 hfront ▸ hs⟩
  · rintro ⟨rest, rfl⟩
    exact ⟨rest.toByteArray, String.toByteArray_append⟩

/-- A text ends with another exactly if its bytes do. -/
theorem exists_bytes_append_iff {s ending : String} :
    (∃ front : ByteArray, s.toByteArray = front ++ ending.toByteArray) ↔
      ∃ front : String, s = front ++ ending := by
  constructor
  · rintro ⟨first, h⟩
    obtain ⟨front, back, hs, -, hback⟩ :=
      exists_append_of_isValidUTF8 h (.inr ending.isValidUTF8)
    exact ⟨front, String.toByteArray_inj.1 hback ▸ hs⟩
  · rintro ⟨front, rfl⟩
    exact ⟨front.toByteArray, String.toByteArray_append⟩

/-- Bytes are read as a text exactly if they are the bytes of the text. -/
theorem fromUTF8?_eq_some_iff {b : ByteArray} {s : String} :
    String.fromUTF8? b = some s ↔ b = s.toByteArray := by
  rw [String.fromUTF8?]
  constructor
  · intro h
    split at h
    · rw [← Option.some.inj h]
      rfl
    · cases h
  · rintro rfl
    exact dif_pos s.isValidUTF8

/-! ## Starts and ends of texts -/

theorem prefix_toList_iff {s start : String} :
    start.toList <+: s.toList ↔ ∃ rest : String, s = start ++ rest := by
  constructor
  · rintro ⟨rest, h⟩
    exact ⟨String.ofList rest, by rw [← String.toList_inj, String.toList_append, ← h,
      String.toList_ofList]⟩
  · rintro ⟨rest, rfl⟩
    exact ⟨rest.toList, String.toList_append.symm⟩

theorem suffix_toList_iff {s ending : String} :
    ending.toList <:+ s.toList ↔ ∃ front : String, s = front ++ ending := by
  constructor
  · rintro ⟨front, h⟩
    exact ⟨String.ofList front, by rw [← String.toList_inj, String.toList_append, ← h,
      String.toList_ofList]⟩
  · rintro ⟨front, rfl⟩
    exact ⟨front.toList, String.toList_append.symm⟩

end MessageExchange.Text
