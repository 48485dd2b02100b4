import MessageExchange.Modeline.Basic
import MessageExchange.Proofs.Text.Words

/-!
# The form of a modeline

`Written line rest` says how a modeline looks: white space, `//` or `#`, white
space, `relay:` and the rest, which holds the declarations.  `declarations?`
finds the rest of a line that is written so and of no other
(`declarations?_eq_some_iff`).  Neither the comment nor the marker starts with
white space, so the rest of a line is determined.

A word with an equals sign is cut at the first one (`Cut`), and `keyValue?` finds
that cut (`keyValue?_of_cut`).

A `Writing` is a modeline with its white space: keys and values and what stands
before, between and after them.  Its text is written as a modeline, and the words
of the rest are the declarations (`Writing.written`, `Writing.spaced`).
-/

namespace MessageExchange.Modeline

open Text (Blank Solid Breaks Spaced)

/-! ## Lines -/

/-- A modeline with what stands after the marker. -/
def Written (line rest : List Char) : Prop :=
  ∃ lead comment mid, Blank lead ∧ (comment = "//".toList ∨ comment = "#".toList) ∧ Blank mid ∧
    line = lead ++ comment ++ mid ++ "relay:".toList ++ rest

theorem afterStart?_eq_some_iff {start text rest : List Char} :
    afterStart? start text = some rest ↔ text = start ++ rest := by
  induction start generalizing text with
  | nil => simp [afterStart?]
  | cons c start ih =>
      cases text with
      | nil => simp [afterStart?]
      | cons d text =>
          by_cases h : c = d
          · subst h
            simp [afterStart?, ih]
          · simp [afterStart?, h, Ne.symm h]

theorem comment?_eq_some_iff {line rest : List Char} :
    comment? line = some rest ↔ line = "//".toList ++ rest ∨ line = "#".toList ++ rest := by
  rw [comment?, Option.or_eq_some_iff, afterStart?_eq_some_iff, afterStart?_eq_some_iff]
  constructor
  · rintro (h | ⟨-, h⟩)
    · exact .inl h
    · exact .inr h
  · rintro (h | h)
    · exact .inl h
    · subst h
      exact .inr ⟨rfl, rfl⟩

theorem declarations?_of_written {line rest : List Char} (h : Written line rest) :
    declarations? line = some rest := by
  obtain ⟨lead, comment, mid, hlead, hcomment, hmid, rfl⟩ := h
  simp only [List.append_assoc]
  -- Neither a comment nor the marker starts with white space, so trimming stops before it.
  have hstart : Text.trimStart (lead ++ (comment ++ (mid ++ ("relay:".toList ++ rest)))) =
      comment ++ (mid ++ ("relay:".toList ++ rest)) := by
    rw [Text.trimStart_blank_append hlead]
    rcases hcomment with rfl | rfl
    · exact Text.trimStart_cons (c := '/') rfl _
    · exact Text.trimStart_cons (c := '#') rfl _
  have hafter : comment? (comment ++ (mid ++ ("relay:".toList ++ rest))) =
      some (mid ++ ("relay:".toList ++ rest)) := by
    rw [comment?_eq_some_iff]
    rcases hcomment with rfl | rfl
    · exact .inl rfl
    · exact .inr rfl
  rw [declarations?, hstart, hafter, Option.bind_some, Text.trimStart_blank_append hmid,
    afterStart?_eq_some_iff]
  exact Text.trimStart_cons (c := 'r') rfl _

theorem written_of_declarations? {line rest : List Char} (h : declarations? line = some rest) :
    Written line rest := by
  rw [declarations?, Option.bind_eq_some_iff] at h
  obtain ⟨after, hafter, hrest⟩ := h
  rw [comment?_eq_some_iff] at hafter
  rw [afterStart?_eq_some_iff] at hrest
  obtain ⟨lead, hlead, hline⟩ := Text.exists_blank_append_trimStart line
  obtain ⟨mid, hmid, hmidEq⟩ := Text.exists_blank_append_trimStart after
  rw [hrest] at hmidEq
  rcases hafter with hafter | hafter
  · refine ⟨lead, "//".toList, mid, hlead, .inl rfl, hmid, ?_⟩
    rw [hline, hafter, hmidEq]
    simp only [List.append_assoc]
  · refine ⟨lead, "#".toList, mid, hlead, .inr rfl, hmid, ?_⟩
    rw [hline, hafter, hmidEq]
    simp only [List.append_assoc]

/-- The declarations of a line are the rest that it is written with. -/
theorem declarations?_eq_some_iff {line rest : List Char} :
    declarations? line = some rest ↔ Written line rest :=
  ⟨written_of_declarations?, declarations?_of_written⟩

example : declarations? " # relay:a=b".toList = some "a=b".toList := by decide

example : declarations? "///relay:a=b".toList = none := by decide

/-! ## Words -/

/-- A word cut at its first equals sign. -/
def Cut (word key value : List Char) : Prop := word = key ++ '=' :: value ∧ '=' ∉ key

theorem keyValue?_of_cut {word key value : List Char} (h : Cut word key value) :
    keyValue? word = some (key, value) := by
  obtain ⟨rfl, hkey⟩ := h
  induction key with
  | nil => rfl
  | cons c key ih =>
      rw [List.mem_cons, not_or] at hkey
      rw [List.cons_append, keyValue?, ih hkey.2]
      · rfl
      · exact fun hc => hkey.1 hc.symm

theorem keyValue?_eq_none_iff {word : List Char} : keyValue? word = none ↔ '=' ∉ word := by
  induction word with
  | nil => simp [keyValue?]
  | cons c word ih =>
      by_cases hc : c = '='
      · subst hc
        simp [keyValue?]
      · rw [keyValue?, Option.map_eq_none_iff, ih, List.mem_cons, not_or]
        · exact ⟨fun h => ⟨Ne.symm hc, h⟩, fun h => h.2⟩
        · exact hc

/-- The cut of a word that has an equals sign. -/
theorem cut_takeWhile {word : List Char} (h : '=' ∈ word) :
    Cut word (word.takeWhile (· ≠ '=')) (word.dropWhile (· ≠ '=')).tail := by
  induction word with
  | nil => cases h
  | cons c word ih =>
      by_cases hc : c = '='
      · subst hc
        exact ⟨by simp, by simp⟩
      · have hword : '=' ∈ word := by
          rcases List.mem_cons.1 h with h | h
          · exact absurd h.symm hc
          · exact h
        obtain ⟨heq, hkey⟩ := ih hword
        have htake : (c :: word).takeWhile (· ≠ '=') = c :: word.takeWhile (· ≠ '=') :=
          List.takeWhile_cons_of_pos (by simpa using hc)
        have hdrop : (c :: word).dropWhile (· ≠ '=') = word.dropWhile (· ≠ '=') :=
          List.dropWhile_cons_of_pos (by simpa using hc)
        rw [htake, hdrop]
        refine ⟨?_, ?_⟩
        · rw [List.cons_append, ← heq]
        · rw [List.mem_cons, not_or]
          exact ⟨Ne.symm hc, hkey⟩

theorem cut_of_keyValue? {word key value : List Char} (h : keyValue? word = some (key, value)) :
    Cut word key value := by
  have hmem : '=' ∈ word := by
    by_contra hnone
    rw [keyValue?_eq_none_iff.2 hnone] at h
    cases h
  have hcut := cut_takeWhile hmem
  rw [keyValue?_of_cut hcut, Option.some_inj, Prod.mk.injEq] at h
  rwa [h.1, h.2] at hcut

/-! ## Writing modelines -/

/-- A declaration with the white space before it. -/
structure Part where
  gap : List Char
  key : String
  value : String
  gap_blank : Blank gap
  key_solid : Solid key.toList
  key_uncut : '=' ∉ key.toList
  value_solid : Solid value.toList

namespace Part

/-- The declaration without the white space. -/
def word (part : Part) : List Char := part.key.toList ++ '=' :: part.value.toList

theorem word_ne_nil (part : Part) : part.word ≠ [] := by simp [word]

theorem word_solid (part : Part) : Solid part.word := by
  intro c hc
  rcases List.mem_append.1 hc with hc | hc
  · exact part.key_solid c hc
  · rcases List.mem_cons.1 hc with rfl | hc
    · rfl
    · exact part.value_solid c hc

theorem word_cut (part : Part) : Cut part.word part.key.toList part.value.toList :=
  ⟨rfl, part.key_uncut⟩

end Part

/-- A modeline with its white space. -/
structure Writing where
  /-- The white space before the comment. -/
  lead : List Char
  /-- The characters that start the comment. -/
  comment : List Char
  /-- The white space before the marker. -/
  mid : List Char
  parts : List Part
  /-- The white space at the end. -/
  trail : List Char
  lead_blank : Blank lead
  comment_eq : comment = "//".toList ∨ comment = "#".toList
  mid_blank : Blank mid
  /-- Declarations do not touch one another. -/
  gap_ne_nil : ∀ part ∈ parts.tail, part.gap ≠ []
  trail_blank : Blank trail

/-- Declarations, each after its white space, and white space at the end. -/
def spell (parts : List Part) (trail : List Char) : List Char :=
  parts.flatMap (fun part => part.gap ++ part.word) ++ trail

theorem breaks_spell {parts : List Part} (hparts : ∀ part ∈ parts, part.gap ≠ [])
    {trail : List Char} (htrail : Blank trail) : Breaks (spell parts trail) := by
  cases parts with
  | nil => exact htrail.breaks
  | cons part rest =>
      cases hgap : part.gap with
      | nil => exact absurd hgap (hparts part List.mem_cons_self)
      | cons c gap =>
          intro d hd
          rw [spell, List.flatMap_cons, hgap] at hd
          cases hd
          exact part.gap_blank c (hgap ▸ List.mem_cons_self)

theorem spaced_spell {parts : List Part} (hparts : ∀ part ∈ parts.tail, part.gap ≠ [])
    {trail : List Char} (htrail : Blank trail) :
    Spaced (parts.map Part.word) (spell parts trail) := by
  induction parts with
  | nil => exact .blank htrail
  | cons part rest ih =>
      have hrest := ih fun other hmem => hparts other (List.mem_of_mem_tail hmem)
      have hspaced := Spaced.word part.gap_blank part.word_ne_nil part.word_solid
        (breaks_spell hparts htrail) hrest
      have htext : spell (part :: rest) trail = part.gap ++ part.word ++ spell rest trail := by
        rw [spell, spell, List.flatMap_cons, List.append_assoc]
      rw [List.map_cons, htext]
      exact hspaced

namespace Writing

/-- What stands after the marker. -/
def declarations (writing : Writing) : List Char := spell writing.parts writing.trail

/-- The whole line. -/
def text (writing : Writing) : List Char :=
  writing.lead ++ writing.comment ++ writing.mid ++ "relay:".toList ++ writing.declarations

theorem written (writing : Writing) : Written writing.text writing.declarations :=
  ⟨writing.lead, writing.comment, writing.mid, writing.lead_blank, writing.comment_eq,
    writing.mid_blank, rfl⟩

theorem spaced (writing : Writing) :
    Spaced (writing.parts.map Part.word) writing.declarations :=
  spaced_spell writing.gap_ne_nil writing.trail_blank

end Writing

end MessageExchange.Modeline
