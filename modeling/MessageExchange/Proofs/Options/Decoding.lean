import Mathlib.Data.Finset.Card
import MessageExchange.Options.Basic
import MessageExchange.Proofs.Options.Grammar

/-!
# Reading options

A decoder that reads what the JSON grammar derives finds options in exactly the
texts that write an object of strings, and what is read has the value of each key's
last member (`Options.ofJson_decodes`).  Keys are compared as they are after
decoding, so two spellings of one key are one key.
-/

namespace MessageExchange

variable {α : Type}

/-! ## The map of a list -/

/-- The last entry of a key in a list has the value. -/
def LastValue (entries : List (String × α)) (key : String) (value : α) : Prop :=
  ∃ before after, entries = before ++ (key, value) :: after ∧ key ∉ after.map Prod.fst

theorem lastValue_concat_iff {entries : List (String × α)} {entry : String × α} {key : String}
    {value : α} :
    LastValue (entries ++ [entry]) key value ↔
      if entry.1 = key then entry.2 = value else LastValue entries key value := by
  constructor
  · rintro ⟨before, after, heq, hafter⟩
    rcases List.eq_nil_or_concat after with rfl | ⟨after, last, rfl⟩
    · obtain ⟨-, hentry⟩ := List.append_inj' heq rfl
      cases hentry
      simp
    · rw [List.concat_eq_append, ← List.cons_append, ← List.append_assoc] at heq
      obtain ⟨hentries, hentry⟩ := List.append_inj' heq rfl
      cases hentry
      simp only [List.concat_eq_append, List.map_append, List.map_cons, List.map_nil,
        List.mem_append, List.mem_singleton, not_or] at hafter
      rw [if_neg (Ne.symm hafter.2)]
      exact ⟨before, after, hentries, hafter.1⟩
  · intro h
    split at h
    · next hkey =>
      subst hkey h
      exact ⟨entries, [], rfl, by simp⟩
    · next hkey =>
      obtain ⟨before, after, rfl, hafter⟩ := h
      refine ⟨before, after ++ [entry], by simp, ?_⟩
      simpa [Ne.symm hkey] using hafter

theorem KeyMap.ofList_concat (entries : List (String × α)) (entry : String × α) :
    ofList (entries ++ [entry]) = (ofList entries).insert entry.1 entry.2 :=
  List.foldl_concat ..

theorem KeyMap.find?_ofList_eq_some_iff {entries : List (String × α)} {key : String} {value : α} :
    (ofList entries).find? key = some value ↔ LastValue entries key value := by
  induction entries using List.reverseRecOn with
  | nil => simp [ofList, LastValue]
  | append_singleton entries entry ih =>
      rw [ofList_concat, find?_insert, lastValue_concat_iff]
      split
      · exact Option.some_inj
      · exact ih

theorem exists_lastValue_iff {entries : List (String × α)} {key : String} :
    (∃ value, LastValue entries key value) ↔ key ∈ entries.map Prod.fst := by
  induction entries using List.reverseRecOn with
  | nil => simp [LastValue]
  | append_singleton entries entry ih =>
      simp only [lastValue_concat_iff, List.map_append, List.mem_append, List.map_cons,
        List.map_nil, List.mem_singleton, ← ih]
      by_cases hkey : entry.1 = key
      · simp [hkey]
      · simp [hkey, Ne.symm hkey]

/-- The keys of the map are the keys of the list. -/
theorem KeyMap.mem_keys_ofList_iff {entries : List (String × α)} {key : String} :
    key ∈ (ofList entries).toList.map Prod.fst ↔ key ∈ entries.map Prod.fst := by
  constructor
  · intro h
    obtain ⟨⟨key, value⟩, hmem, rfl⟩ := List.mem_map.1 h
    exact exists_lastValue_iff.1 ⟨value, find?_ofList_eq_some_iff.1 (mem_toList_iff.1 hmem)⟩
  · intro h
    obtain ⟨value, hlast⟩ := exists_lastValue_iff.2 h
    exact List.mem_map.2 ⟨(key, value), mem_toList_iff.2 (find?_ofList_eq_some_iff.2 hlast), rfl⟩

theorem KeyMap.nodup_keys (map : KeyMap α) : (map.toList.map Prod.fst).Nodup := by
  rw [List.nodup_iff_pairwise_ne, List.pairwise_map]
  refine map.sorted.imp ?_
  intro first second hlt heq
  rw [heq] at hlt
  exact String.lt_irrefl _ hlt

theorem KeyMap.size_ofList (entries : List (String × α)) :
    (ofList entries).size = (entries.map Prod.fst).toFinset.card := by
  have hkeys : ((ofList entries).toList.map Prod.fst).toFinset =
      (entries.map Prod.fst).toFinset := by
    ext key
    rw [List.mem_toFinset, List.mem_toFinset, mem_keys_ofList_iff]
  rw [← hkeys, List.toFinset_card_of_nodup (nodup_keys _), List.length_map]
  rfl

/-! ## Options -/

section
variable {decoder : Json.Decoder} (hreads : decoder.ReadsText)
include hreads

theorem Options.ofJson_of_written {members : List (String × String)} {text : String}
    (h : Json.Written members text.toList) :
    ofJson text decoder = .ok (KeyMap.ofList members) := by
  rw [ofJson, hreads.eq_ok_iff.2 h]

theorem Options.ofJson_of_not_written {text : String}
    (h : ¬∃ members, Json.Written members text.toList) :
    ∃ message, ofJson text decoder = .error (.invalidConfiguration message) := by
  cases hread : decoder.ofText text with
  | ok members => exact absurd ⟨members, hreads.eq_ok_iff.1 hread⟩ h
  | error reason => exact ⟨_, by rw [ofJson, hread]⟩

/-- Every list of members can be written, and however it is written, a decoder that reads JSON gives
the map of its keys to their last values.  A text that no list of members is written as is refused;
a text that goes on after an object and a text that is cut short are such texts. -/
theorem Options.ofJson_decodes :
    (∀ members, ∃ text : String, Json.Written members text.toList) ∧
      (∀ members (text : String), Json.Written members text.toList →
        ∃ options, ofJson text decoder = .ok options ∧
          (∀ key value, options.find? key = some value ↔ LastValue members key value) ∧
          options.size = (members.map Prod.fst).toFinset.card) ∧
      (∀ text : String, (¬∃ members, Json.Written members text.toList) →
        ∃ message, ofJson text decoder = .error (.invalidConfiguration message)) ∧
      ∀ members members' (text extra : String), Json.Written members text.toList →
        Json.Written members' (text ++ extra).toList → Json.Gap extra.toList := by
  refine ⟨Json.exists_written, ?_, ?_, ?_⟩
  · intro members text h
    exact ⟨_, ofJson_of_written hreads h, fun key value => KeyMap.find?_ofList_eq_some_iff,
      KeyMap.size_ofList members⟩
  · intro text h
    exact ofJson_of_not_written hreads h
  · intro members members' text extra h h'
    rw [String.toList_append] at h'
    exact Json.gap_of_written_append h h'

end

/-- A key that is spelled in two ways, the second time with an escape, has its last value.  A
surrogate without its partner is refused. -/
theorem Options.ofJson_decodes_of_two_spellings :
    let text := "\x7b \"a\":\"1\",\"\\u0061\" : \"\\uD83D\\ude00\"\x7d"
    let lone := "\x7b\"a\":\"\\uD83D\"\x7d"
    (∃ options, ofJson text = .ok options ∧ options.find? "a" = some "😀" ∧ options.size = 1) ∧
      ∃ message, ofJson lone = .error (.invalidConfiguration message) := by
  intro text lone
  obtain ⟨-, hwritten, hrefused, -⟩ := ofJson_decodes Json.Decoder.readsText_standard
  have hobject : Json.object? text = some [("a", "1"), ("a", "😀")] := by decide
  have hnone : Json.object? lone = none := by decide
  obtain ⟨options, hread, hfind, hsize⟩ := hwritten _ text (Json.object?_eq_some_iff.1 hobject)
  refine ⟨⟨options, hread, (hfind "a" "😀").2 ⟨[("a", "1")], [], rfl, by simp⟩, ?_⟩, ?_⟩
  · rw [hsize]
    rfl
  · refine hrefused lone ?_
    rintro ⟨members, hmembers⟩
    rw [Json.object?_eq_some_iff.2 hmembers] at hnone
    cases hnone

end MessageExchange
